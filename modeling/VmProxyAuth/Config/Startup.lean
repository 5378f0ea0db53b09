import VmProxyAuth.Cluster.Metadata
import VmProxyAuth.Cluster.StaticPeers
import VmProxyAuth.Config.Validation

/-!
# Start-up

What `main` does with a configuration until it serves requests: it loads and validates the
configuration, makes the services and the storage, and with Raft storage the member list and the
discovery.  What the file system, the network and the libraries answer is a parameter, the
`World`; what the libraries refuse whatever the world is written out.  A configuration that is
valid may still be one that no node can be started with, in any world
(`VmProxyAuth.Config.Startable`).
-/

namespace VmProxyAuth

namespace Config

open Checks HostPort Cluster Clock

/-! ### Failures -/

/-- How a part of the start-up ends if it does not succeed: with an error that it returns, or with
a panic. -/
inductive Failure where
  | failed (err : GoError)
  | panicked
  deriving DecidableEq, Repr

/-- A failure with its error wrapped. -/
def Failure.wrapf (format : String) (args : List FmtArg) : Failure → Failure
  | failed err => failed (.wrapf format args err)
  | panicked => panicked

/-- A call that returns an error or a value. -/
def lift {α : Type} (result : Except GoError α) : Except Failure α := result.mapError .failed

@[simp]
theorem lift_eq_ok_iff {α : Type} (result : Except GoError α) (a : α) :
  lift result = .ok a ↔ result = .ok a
  := mapError_eq_ok_iff Failure.failed result a

/-! ### The world -/

/-- The IP address a host name is resolved to: none, one that stands for all interfaces, or
another one. -/
inductive IPAddr where
  | nil
  | unspecified
  | specified (ip : String)
  deriving DecidableEq, Repr

/-- `RedisStorageConfig`. -/
structure RedisStorageConfig where
  address : String
  password : String
  database : ℤ
  keyPrefix : String
  connectTimeout : ℤ
  readTimeout : ℤ
  writeTimeout : ℤ
  poolSize : ℤ
  minIdleConns : ℤ
  maxRetries : ℤ
  minRetryBackoff : ℤ
  maxRetryBackoff : ℤ
  deriving DecidableEq, Repr

/-- The fields of the configuration of the member list library that are set. -/
structure MlConfig where
  bindAddr : String
  bindPort : ℤ
  advertiseAddr : String
  advertisePort : ℤ
  gossipInterval : ℤ
  gossipNodes : ℤ
  probeInterval : ℤ
  probeTimeout : ℤ
  secretKey : GoString
  name : String
  deriving DecidableEq, Repr

/-- What a round of discovery finds and is answered: the members there are, the peers the lookup of
each mDNS provider finds, by its place among the providers, and the answers of `Join` and of the
Raft library. -/
structure Round where
  members : List (String × ℕ)
  found : ℕ → List String
  joinErr : Option GoError
  raftErr : Option GoError

/-- What is answered at start-up: by Redis, the file system, the name service, the sockets, the
Raft library, the member list library and mDNS; and the largest channel that can be made, and the
first round of discovery. -/
structure World where
  channelLimit : ℤ
  ping : RedisStorageConfig → Except GoError Unit
  subscribe : RedisStorageConfig → Except GoError Unit
  mkdirAll : String → Except GoError Unit
  lookupPort : String → Except GoError ℤ
  lookupHost : String → Except GoError IPAddr
  listen : String → Except GoError Unit
  newBoltStore : String → String → Except GoError Unit
  newSnapshotStore : String → Except GoError Unit
  newRaft : RaftStorageConfig → Except GoError Unit
  hasExistingState : String → Except GoError Bool
  bootstrapErr : List Server → Option GoError
  externalIP : Except GoError String
  defaultWANConfig : MlConfig
  createMemberlist : MlConfig → Except GoError Unit
  startMDNS : MDNSConfig → Except GoError Unit
  firstRound : Round

/-! ### The storage -/

/-- The storage configuration made from the Redis configuration. -/
def RedisConfig.storageConfig (r : RedisConfig) : RedisStorageConfig where
  address := r.address
  password := r.password
  database := r.database
  keyPrefix := r.keyPrefix
  connectTimeout := r.timeouts.connect
  readTimeout := r.timeouts.read
  writeTimeout := r.timeouts.write
  poolSize := r.pool.size
  minIdleConns := r.pool.minIdle
  maxRetries := r.retry.maxAttempts
  minRetryBackoff := r.retry.backoff.min
  maxRetryBackoff := r.retry.backoff.max

/-- The configuration with the defaults of `NewRedisStorage`. -/
def RedisStorageConfig.withDefaults (config : RedisStorageConfig) : RedisStorageConfig :=
  { config with
    keyPrefix := if config.keyPrefix = "" then "vm-proxy-auth:" else config.keyPrefix
    connectTimeout := if config.connectTimeout = 0 then 5 * second else config.connectTimeout
    readTimeout := if config.readTimeout = 0 then 3 * second else config.readTimeout
    writeTimeout := if config.writeTimeout = 0 then 3 * second else config.writeTimeout
    poolSize := if config.poolSize = 0 then 20 else config.poolSize
    minIdleConns := if config.minIdleConns = 0 then 10 else config.minIdleConns }

/-- `NewRedisStorage`, with the configuration the storage has in the end.  What the client makes of
its options is left to the answers of the world. -/
def newRedisStorage (w : World) (config : RedisStorageConfig) : Except GoError RedisStorageConfig :=
  do
  refuse (config.address = "") (.errorf "redis address is required" [])
  wrap (.wrapf "failed to connect to Redis: %w" []) (w.ping config.withDefaults)
  wrap (.wrapf "failed to start PubSub monitoring: %w" []) (w.subscribe config.withDefaults)
  .ok config.withDefaults

/-- Whether a port is a number in range, or a name. -/
def portInRange (port : String) : Bool :=
  match atoi port with
  | .ok n => decide (0 ≤ n ∧ n ≤ 65535)
  | .error .outOfRange => false
  | .error .invalid => true

/-- `net.LookupPort`. -/
def resolvePort (w : World) (port : String) : Except GoError ℤ :=
  if portInRange port then
    match atoi port with
    | .ok n => .ok n
    | .error _ => w.lookupPort port
  else .error (.errorf "address %s: invalid port" [.string (str port)])

/-- The address of a host: none for no host, and the two that stand for all interfaces are not
looked up. -/
def resolveHost (w : World) (host : String) : Except GoError IPAddr :=
  if host = "" then .ok .nil
  else if host = "0.0.0.0" ∨ host = "::" then .ok .unspecified
  else w.lookupHost host

/-- `net.ResolveTCPAddr`: an address that is not empty is split, and port and host are looked
up. -/
def resolveTCPAddr (w : World) (address : String) : Except GoError IPAddr :=
  if address = "" then .ok .nil
  else do
    let (host, port) ← splitAddress address
    let _ ← resolvePort w port
    resolveHost w host

/-- `net.Listen`. -/
def listen (w : World) (address : String) : Except GoError Unit := do
  let _ ← resolveTCPAddr w address
  w.listen address

/-- `NewTCPTransport` of the Raft library, which refuses an address that others cannot use. -/
def newTCPTransport (w : World) (bindAddr : String) (advertise : IPAddr) : Except GoError Unit := do
  listen w bindAddr
  match advertise with
  | .specified _ => .ok ()
  | _ => .error (.errorf "local bind address is not advertisable" [])

/-- `createRaftTransport`. -/
def createRaftTransport (w : World) (config : RaftConfig) : Except GoError Unit := do
  let addr ← wrap (.wrapf "failed to resolve bind address: %w" [])
    (resolveTCPAddr w config.bindAddress)
  wrap (.wrapf "failed to create transport: %w" []) (newTCPTransport w config.bindAddress addr)

/-- `createRaftStores`. -/
def createRaftStores (w : World) (config : RaftConfig) : Except GoError Unit := do
  wrap (.wrapf "failed to create log store: %w" [])
    (w.newBoltStore config.dataDir "raft-log.db")
  wrap (.wrapf "failed to create stable store: %w" [])
    (w.newBoltStore config.dataDir "raft-stable.db")
  wrap (.wrapf "failed to create snapshot store: %w" []) (w.newSnapshotStore config.dataDir)

/-- `NewRaft` of the Raft library, which refuses an empty identifier. -/
def newRaft (w : World) (config : RaftStorageConfig) : Except GoError Unit := do
  refuse (config.nodeID = "") (.errorf "LocalID cannot be empty" [])
  w.newRaft config

/-- `checkConfiguration` of the Raft library: every server has an identifier and an address, and
no two have the same. -/
def Checked (servers : List Server) : Prop :=
  (∀ s ∈ servers, s.id ≠ "" ∧ s.address ≠ "") ∧ (servers.map Servers.Server.id).Nodup ∧
    (servers.map Servers.Server.address).Nodup

instance : DecidablePred Checked := fun _ => inferInstanceAs (Decidable (_ ∧ _ ∧ _))

/-- The answer of `BootstrapCluster` of the Raft library. -/
def bootstrapAnswer (w : World) (servers : List Server) : Option GoError :=
  if Checked servers then w.bootstrapErr servers else some (.library "raft")

/-- `NewRaftStorage`. -/
def newRaftStorage (w : World) (config : RaftConfig) (nodeID : String) :
    Except GoError RaftStorage := do
  wrap (.wrapf "failed to create data directory: %w" []) (w.mkdirAll config.dataDir)
  wrap (.wrapf "failed to create transport: %w" []) (createRaftTransport w config)
  createRaftStores w config
  wrap (.wrapf "failed to create raft instance: %w" []) (newRaft w (config.storageConfig nodeID))
  let rs : RaftStorage := ⟨config.storageConfig nodeID, false, none⟩
  match rs.bootstrapCluster (w.hasExistingState config.dataDir)
      (bootstrapAnswer w rs.staticServers) with
  | (rs, none) => .ok rs
  | (_, some err) => .error (.wrapf "failed to bootstrap cluster: %w" [] err)

/-- The state storage. -/
inductive StateStorage where
  | local
  | redis (config : RedisStorageConfig)
  | raft (rs : RaftStorage)

/-- `NewStateStorage` with the type and configuration of `createStateStorageConfig`: any type but
`redis` and `raft` is made `local`. -/
def newStateStorage (w : World) (c : StorageConfig) (nodeID : String) :
    Except GoError StateStorage :=
  if c.type = "redis" then do
    let config ← newRedisStorage w c.redis.storageConfig
    .ok (.redis config)
  else if c.type = "raft" then do
    let rs ← newRaftStorage w c.raft nodeID
    .ok (.raft rs)
  else .ok .local

/-! ### The member list -/

/-- `ConvertBindToAdvertiseAddress`. -/
def convertBindToAdvertiseAddress (w : World) (bindAddr : String) : Except GoError String := do
  let (host, port) ← wrap (.wrapf "invalid bind address: %w" []) (splitAddress bindAddr)
  if host = "0.0.0.0" ∨ host = "" then do
    let externalIP ← wrap (.wrapf "failed to get external IP: %w" []) w.externalIP
    .ok (externalIP ++ ":" ++ port)
  else .ok bindAddr

/-- The error of `strconv.Atoi`. -/
def numError (s : String) : NumErr → GoError
  | .invalid => .errorf "strconv.Atoi: parsing %q: invalid syntax" [.string (str s)]
  | .outOfRange => .errorf "strconv.Atoi: parsing %q: value out of range" [.string (str s)]

/-- The host and the port of an address, and the port as a number. -/
def parseAddress (badFormat badPort : String) (addr : String) : Except GoError (String × ℤ) := do
  let (host, portStr) ← wrap (.wrapf badFormat []) (splitAddress addr)
  let port ← wrap (.wrapf badPort []) ((atoi portStr).mapError (numError portStr))
  .ok (host, port)

/-- `DecodeEncryptionKey`, which takes the first 32 bytes as they are. -/
def decodeEncryptionKey (key : String) : Except GoError GoString :=
  if key = "" then .ok []
  else if (str key).length < 32 then
    .error (.errorf "encryption key must be at least 32 bytes" [])
  else .ok ((str key).take 32)

/-- The settings of gossip and probes, where they are positive. -/
def MemberlistConfig.settings (config : MemberlistConfig) (ml : MlConfig) : MlConfig :=
  { ml with
    gossipInterval := if 0 < config.gossip.interval then config.gossip.interval
      else ml.gossipInterval
    gossipNodes := if 0 < config.gossip.nodes then config.gossip.nodes else ml.gossipNodes
    probeInterval := if 0 < config.probe.interval then config.probe.interval else ml.probeInterval
    probeTimeout := if 0 < config.probe.timeout then config.probe.timeout else ml.probeTimeout }

/-- The address that is advertised, if there is one. -/
def MemberlistConfig.advertise (config : MemberlistConfig) (ml : MlConfig) :
    Except GoError MlConfig :=
  if config.advertiseAddress = "" then .ok ml
  else do
    let (advHost, advPort) ← parseAddress "invalid advertise address format: %w"
      "invalid advertise port: %w" config.advertiseAddress
    .ok { ml with advertiseAddr := advHost, advertisePort := advPort }

/-- The encryption, if there is any. -/
def MemberlistConfig.encrypt (config : MemberlistConfig) (ml : MlConfig) :
    Except GoError MlConfig :=
  if config.peers.encryption = "" then .ok ml
  else do
    let key ← wrap (.wrapf "invalid encryption key: %w" [])
      (decodeEncryptionKey config.peers.encryption)
    .ok { ml with secretKey := key }

/-- `applyConfig`. -/
def MemberlistConfig.applyConfig (config : MemberlistConfig) (ml : MlConfig) :
    Except GoError MlConfig := do
  let (bindHost, bindPort) ← parseAddress "invalid bind address format: %w"
    "invalid bind port: %w" config.bindAddress
  let ml ← config.advertise { ml with bindAddr := bindHost, bindPort := bindPort }
  let ml ← config.encrypt (config.settings ml)
  .ok { ml with name := (config.metadata.lookup "node_name").getD ml.name }

/-- `NewMemberlistServiceWithMetadata`, as far as it can fail. -/
def newMemberlistService (w : World) (config : MemberlistConfig) : Except GoError Unit := do
  let ml ← wrap (.wrapf "failed to apply memberlist config: %w" [])
    (config.applyConfig w.defaultWANConfig)
  wrap (.wrapf "failed to create memberlist: %w" []) (w.createMemberlist ml)

/-! ### Discovery -/

/-- A discovery provider.  One for mDNS runs if it could be started. -/
inductive Provider where
  | static (peers : List String)
  | mdns (running : Bool)
  deriving DecidableEq, Repr

/-- `createProvider`.  The static provider reads the peers of a configuration that may be nil. -/
def createProvider (d : DiscoveryConfig) (providerType : String) : Except Failure Provider :=
  if providerType = "static" then
    match d.static with
    | none => .error .panicked
    | some s =>
      if s.peers = [] then .error (.failed (.errorf "no static peers configured" []))
      else .ok (.static s.peers)
  else if providerType = "mdns" then .ok (.mdns false)
  else .error (.failed (.errorf "unknown discovery provider type: %s" [.string (str providerType)]))

/-- The loop of `CreateProviders`. -/
def createProviders (d : DiscoveryConfig) : List String → Except Failure (List Provider)
  | [] => .ok []
  | providerType :: types => do
    let provider ← (createProvider d providerType).mapError
      (.wrapf "failed to create %s provider: %w" [.string (str providerType)])
    let providers ← createProviders d types
    .ok (provider :: providers)

/-- `NewMDNSService` of the mDNS library, which asks for a name, a service and a port. -/
def newMDNSService (m : MDNSConfig) : Except GoError Unit := do
  refuse (m.hostname = "") (.errorf "missing service instance name" [])
  refuse (m.serviceName = "") (.errorf "missing service name" [])
  refuse (m.port = 0) (.errorf "missing service port" [])

/-- `Start` of a provider.  An error of mDNS is only logged, and leaves a provider that finds
nothing. -/
def Provider.start (w : World) (m : MDNSConfig) : Provider → Provider
  | .static peers => .static peers
  | .mdns _ => .mdns (newMDNSService m >>= fun _ => w.startMDNS m).isOk

/-- `Discover`, where a lookup would find some peers.  The static provider leaves out the peers
that are no addresses. -/
def Provider.discover (found : List String) : Provider → List String
  | .static peers => peers.filter IsAddress
  | .mdns running => if running then found else []

/-- A round as the discovery service runs it, which `main` has connected to the member list, and to
Raft if that is the storage. -/
def Round.discoveryRound (r : Round) (providers : List Provider) (hasRaftManager : Bool) :
    DiscoveryRound where
  hasPeerJoiner := true
  hasRaftManager := hasRaftManager
  members := some r.members
  discovered := providers.mapIdx (fun i provider => .ok (provider.discover (r.found i)))
  joinErr := r.joinErr
  raftErr := r.raftErr

/-- A round of the discovery. -/
def StateStorage.runDiscovery (round : Bool → DiscoveryRound) : StateStorage → StateStorage
  | .raft rs => .raft ((round true).runDiscovery rs).1
  | storage => storage

/-- `Start` of the discovery service: the storage after the first round, and the providers if the
service runs. -/
def discoveryStart (w : World) (d : DiscoveryConfig) (storage : StateStorage) :
    Except Failure (StateStorage × Option (List Provider)) :=
  if !d.enabled then .ok (storage, none)
  else do
    let providers ← (createProviders d d.providers).mapError
      (.wrapf "failed to create discovery providers: %w" [])
    if providers = [] then .ok (storage, none)
    else
      let started := providers.map (Provider.start w d.mdns)
      .ok (storage.runDiscovery (w.firstRound.discoveryRound started), some started)

/-- `Start` of the member list service, where `main` has set a discovery service if discovery is
enabled.  An error of its start is only logged. -/
def memberlistStart (w : World) (d : DiscoveryConfig) (storage : StateStorage) :
    Except Failure (StateStorage × Option (List Provider)) :=
  if d.enabled then
    match discoveryStart w d storage with
    | .error (.failed _) => .ok (storage, none)
    | .error .panicked => .error .panicked
    | .ok result => .ok result
  else .ok (storage, none)

/-- The metadata for Raft, if that is the storage. -/
def nodeMetadata (w : World) (c : Config) :
    StateStorage → Except GoError (Option AdvertisedMetadata)
  | .raft _ => do
    let raftAdvertiseAddr ← convertBindToAdvertiseAddress w c.storage.raft.bindAddress
    .ok (some (createNodeMetadata c.metadata.nodeID c.server.address raftAdvertiseAddr
      c.cluster.memberlist.metadata))
  | _ => .ok none

/-! ### The proxy service -/

/-- `EnhancedService`: its router, the size of its queue if it has one, and whether its health
checker runs. -/
structure EnhancedService where
  router : Proxy.Router
  queueSize : Option ℤ
  monitoring : Bool

/-- `NewMemoryQueue`, whose channel may be too large to be made. -/
def newMemoryQueue (w : World) (maxSize : ℤ) : Except Failure ℤ :=
  if maxSize < 0 ∨ w.channelLimit < maxSize then .error .panicked else .ok maxSize

/-- The queue of the service, if it is enabled. -/
def newQueue (w : World) (q : Proxy.QueueConfig) : Except Failure (Option ℤ) :=
  if q.enabled then (newMemoryQueue w q.maxSize).map some else .ok none

/-- `NewEnhancedService`. -/
def newEnhancedService (w : World) (config : Proxy.Config) : Except Failure EnhancedService := do
  let router ← lift (Proxy.Router.new config)
  let queueSize ← newQueue w config.reliability.queue
  .ok ⟨router, queueSize, false⟩

/-- `StartMonitoring`. -/
def EnhancedService.startMonitoring (s : EnhancedService) (interval : ℤ) :
    Except GoError EnhancedService :=
  if interval ≤ 0 then .ok s
  else if s.monitoring then .error (.errorf "health checker is already running" [])
  else .ok { s with monitoring := true }

/-- `Start` of the service. -/
def EnhancedService.start (s : EnhancedService) (interval : ℤ) : Except GoError EnhancedService :=
  wrap (.wrapf "failed to start health checker: %w" []) (s.startMonitoring interval)

/-! ### The node -/

/-- A node that serves requests: its storage, the metadata it advertises, the providers of its
discovery service if that runs, the verifier of tokens and the proxy service. -/
structure Node where
  storage : StateStorage
  metadata : Option AdvertisedMetadata
  discovery : Option (List Provider)
  verifier : Auth.JWTVerifier
  service : EnhancedService

/-- `initializeMemberlist`. -/
def initializeMemberlist (w : World) (c : Config) (storage : StateStorage) :
    Except Failure (StateStorage × Option AdvertisedMetadata × Option (List Provider)) := do
  let metadata ← lift (nodeMetadata w c storage)
  lift (newMemberlistService w c.cluster.memberlist)
  let (storage, discovery) ← memberlistStart w c.cluster.discovery storage
  .ok (storage, metadata, discovery)

/-- The step of `main` that initialises the member list if the cluster is enabled. -/
def startCluster (w : World) (c : Config) (storage : StateStorage) :
    Except Failure (StateStorage × Option AdvertisedMetadata × Option (List Provider)) :=
  if c.isClusterEnabled then initializeMemberlist w c storage else .ok (storage, none, none)

/-- What `main` does, from the validation of the configuration until the server listens.  An error
ends the process. -/
def main (urlParse : GoString → Except GoError Http.URL) (w : World) (c : Config) :
    Except Failure Node := do
  lift (wrap (.wrapf "config validation failed: %w" []) (c.validate urlParse))
  let verifier ← lift c.auth.verifier
  let storage ← lift (newStateStorage w c.storage c.metadata.nodeID)
  let (storage, metadata, discovery) ← startCluster w c storage
  let service ← newEnhancedService w c.proxy
  let service ← lift (service.start c.proxy.routing.healthCheck.interval)
  lift (listen w c.server.address)
  .ok ⟨storage, metadata, discovery, verifier, service⟩

end Config

end VmProxyAuth
