import VmProxyAuth.Config.Startup

/-!
# Configurations no node can be started with

A valid configuration may be one that no node can be started with: `Validate` does not ask for a
port in range, and with Raft storage neither for a node identifier, for a Raft address that others
can use, for servers with different addresses, for ports of the member list that are numbers, for
an encryption key that is long enough, nor for static peers where a static provider reads them
(`never_started`).  The last makes `main` panic, and so does a queue that is too large
(`panics_iff`).  A node that is started advertises the Raft address it is configured with
(`advertised_raftAddress`).
-/

namespace VmProxyAuth

namespace Config

open Checks HostPort Cluster Clock

/-! ### Addresses -/

/-- An address with a host that others can use, and a port in range. -/
def Advertisable (addr : String) : Prop :=
  ∃ host port, splitHostPort addr = .ok (host, port) ∧ portInRange port = true ∧
    host ≠ "" ∧ host ≠ "0.0.0.0" ∧ host ≠ "::"

/-- An address with a port in range. -/
def Listens (addr : String) : Prop :=
  ∃ host port, splitHostPort addr = .ok (host, port) ∧ portInRange port = true

theorem resolvePort_eq_ok {w : World} {port : String} {n : ℤ} (h : resolvePort w port = .ok n) :
  portInRange port = true
  := by
  rw [resolvePort] at h
  split_ifs at h with hrange
  apply hrange

/-- What is resolved has a host and a port in range. -/
theorem resolveTCPAddr_eq_ok {w : World} {addr : String} {ip : IPAddr} (hne : addr ≠ "")
    (h : resolveTCPAddr w addr = .ok ip) :
  ∃ host port, splitHostPort addr = .ok (host, port) ∧ portInRange port = true ∧
    resolveHost w host = .ok ip
  := by
  rw [resolveTCPAddr, if_neg hne] at h
  simp only [bind_eq_ok_iff, splitAddress_eq_ok_iff] at h
  obtain ⟨⟨host, port⟩, hsplit, n, hport, hhost⟩ := h
  use host, port, hsplit, resolvePort_eq_ok hport, hhost

theorem listens_of_listen {w : World} {addr : String} (hne : addr ≠ "")
    (h : listen w addr = .ok ()) :
  Listens addr
  := by
  simp only [listen, bind_eq_ok_iff] at h
  obtain ⟨ip, hip, -⟩ := h
  obtain ⟨host, port, hsplit, hport, -⟩ := resolveTCPAddr_eq_ok hne hip
  use host, port, hsplit, hport

/-! ### The storage -/

/-- The servers a node bootstraps with. -/
def servers (r : RaftConfig) (nodeID : String) : List Server :=
  (RaftStorage.mk (r.storageConfig nodeID) false none).staticServers

/-- A transport is made for an address that others can use only. -/
theorem advertisable_of_createRaftTransport {w : World} {r : RaftConfig} (hne : r.bindAddress ≠ "")
    (h : createRaftTransport w r = .ok ()) :
  Advertisable r.bindAddress
  := by
  simp only [createRaftTransport, newTCPTransport, bind_eq_ok_iff, wrap_eq_ok_iff] at h
  obtain ⟨ip, hresolve, -, -, hip⟩ := h
  obtain ⟨host, port, hsplit, hport, hhost⟩ := resolveTCPAddr_eq_ok hne hresolve
  use host, port, hsplit, hport
  rw [resolveHost] at hhost
  split_ifs at hhost with hempty hall
  · cases hhost
    cases hip
  · cases hhost
    cases hip
  · use hempty
    apply not_or.mp hall

/-- What the storage of a node is made with. -/
theorem newRaftStorage_eq_ok {w : World} {r : RaftConfig} {nodeID : String} {rs : RaftStorage}
    (hne : r.bindAddress ≠ "") (h : newRaftStorage w r nodeID = .ok rs) :
  nodeID ≠ "" ∧ Advertisable r.bindAddress ∧
    RaftStorage.bootstrapCluster ⟨r.storageConfig nodeID, false, none⟩
      (w.hasExistingState r.dataDir) (bootstrapAnswer w (servers r nodeID)) = (rs, none)
  := by
  simp only [newRaftStorage, newRaft, seq_eq_ok_iff, wrap_eq_ok_iff, refuse_eq_ok_iff] at h
  obtain ⟨-, htransport, -, ⟨hnodeID, -⟩, h⟩ := h
  use hnodeID, advertisable_of_createRaftTransport hne htransport
  split at h
  · rename_i rs' hboot
    cases h
    apply hboot
  · cases h

theorem bootstrapServers_eq_none {rs rs' : RaftStorage} {format : String} {servers : List Server}
    {err : Option GoError} (h : rs.bootstrapServers format servers err = (rs', none)) :
  err = none
  := by
  rw [RaftStorage.bootstrapServers, RaftStorage.raftBootstrap] at h
  split_ifs at h with hnodup
  · cases err with
    | none => rfl
    | some e => cases h
  · cases h

/-- A node without existing state that starts has servers the library does not refuse. -/
theorem checked_of_bootstrapCluster {w : World} {r : RaftConfig} {nodeID : String}
    {rs : RaftStorage} (hnodeID : nodeID ≠ "") (haddress : r.bindAddress ≠ "")
    (h : RaftStorage.bootstrapCluster ⟨r.storageConfig nodeID, false, none⟩ (.ok false)
      (bootstrapAnswer w (servers r nodeID)) = (rs, none)) :
  Checked (servers r nodeID)
  := by
  have hanswer : bootstrapAnswer w (servers r nodeID) = none → Checked (servers r nodeID) := by
    intro hnone
    rw [bootstrapAnswer] at hnone
    split_ifs at hnone with hchecked
    apply hchecked
  by_cases hpeers : r.peers = []
  · have hservers : servers r nodeID = [⟨nodeID, r.bindAddress⟩] := by
      rw [servers, RaftStorage.staticServers, RaftConfig.storageConfig, hpeers]
      rfl
    rw [hservers]
    simp [Checked, hnodeID, haddress]
  · apply hanswer
    rw [RaftStorage.bootstrapCluster] at h
    dsimp only at h
    rw [RaftConfig.storageConfig, if_pos hpeers] at h
    apply bootstrapServers_eq_none h

/-! ### The member list -/

/-- An address with a port that is a number. -/
def HasNumericPort (addr : String) : Prop :=
  ∃ host port n, splitHostPort addr = .ok (host, port) ∧ atoi port = .ok n

theorem hasNumericPort_of_parseAddress {badFormat badPort addr : String} {p : String × ℤ}
    (h : parseAddress badFormat badPort addr = .ok p) :
  HasNumericPort addr
  := by
  simp only [parseAddress, bind_eq_ok_iff, wrap_eq_ok_iff, splitAddress_eq_ok_iff,
    mapError_eq_ok_iff] at h
  obtain ⟨⟨host, port⟩, hsplit, n, hn, -⟩ := h
  use host, port, n, hsplit, hn

/-- The member list can be configured. -/
structure MemberlistConfig.Applicable (config : MemberlistConfig) : Prop where
  bindPort : HasNumericPort config.bindAddress
  advertisePort : config.advertiseAddress ≠ "" → HasNumericPort config.advertiseAddress
  encryption : config.peers.encryption ≠ "" → 32 ≤ (str config.peers.encryption).length

theorem hasNumericPort_of_advertise {config : MemberlistConfig} {ml ml' : MlConfig}
    (h : config.advertise ml = .ok ml') (hne : config.advertiseAddress ≠ "") :
  HasNumericPort config.advertiseAddress
  := by
  rw [MemberlistConfig.advertise, if_neg hne, bind_eq_ok_iff] at h
  obtain ⟨p, hp, -⟩ := h
  apply hasNumericPort_of_parseAddress hp

theorem length_le_of_encrypt {config : MemberlistConfig} {ml ml' : MlConfig}
    (h : config.encrypt ml = .ok ml') (hne : config.peers.encryption ≠ "") :
  32 ≤ (str config.peers.encryption).length
  := by
  rw [MemberlistConfig.encrypt, if_neg hne, bind_eq_ok_iff] at h
  obtain ⟨key, hkey, -⟩ := h
  rw [wrap_eq_ok_iff, decodeEncryptionKey, if_neg hne] at hkey
  split_ifs at hkey with hshort
  apply not_lt.mp hshort

theorem applicable_of_newMemberlistService {w : World} {config : MemberlistConfig}
    (h : newMemberlistService w config = .ok ()) :
  config.Applicable
  := by
  simp only [newMemberlistService, MemberlistConfig.applyConfig, bind_eq_ok_iff,
    wrap_eq_ok_iff] at h
  obtain ⟨ml, ⟨p, hbind, ml₁, hadvertise, ml₂, hencrypt, -⟩, -⟩ := h
  constructor
  · apply hasNumericPort_of_parseAddress hbind
  · apply hasNumericPort_of_advertise hadvertise
  · apply length_le_of_encrypt hencrypt

/-! ### Discovery -/

/-- A provider reads the static configuration while there is none: the first provider that is not
mDNS is a static one. -/
def DiscoveryConfig.ReadsNil (d : DiscoveryConfig) : Prop :=
  d.enabled = true ∧ d.static = none ∧
    (d.providers.dropWhile (fun t => t == "mdns")).head? = some "static"

/-- A provider of the type can be made. -/
def DiscoveryConfig.Known (d : DiscoveryConfig) (t : String) : Prop :=
  t = "mdns" ∨ t = "static" ∧ ∃ s, d.static = some s ∧ s.peers ≠ []

/-- All providers can be made, and there is one. -/
structure DiscoveryConfig.Discovers (d : DiscoveryConfig) : Prop where
  enabled : d.enabled = true
  ne_nil : d.providers ≠ []
  known : ∀ t ∈ d.providers, d.Known t

section

variable (d : DiscoveryConfig)

theorem exists_createProvider_iff (t : String) :
  (∃ provider, createProvider d t = .ok provider) ↔ d.Known t
  := by
  rw [createProvider, DiscoveryConfig.Known]
  split_ifs with hstatic hmdns
  · cases d.static with
    | none => simp [hstatic]
    | some s =>
      by_cases hpeers : s.peers = []
      · simp [hstatic, hpeers]
      · simp [hstatic, hpeers]
  · simp [hmdns]
  · simp [hstatic, hmdns]

theorem createProvider_eq_panicked_iff (t : String) :
  createProvider d t = .error .panicked ↔ t = "static" ∧ d.static = none
  := by
  rw [createProvider]
  split_ifs with hstatic hmdns
  · cases d.static with
    | none => simp [hstatic]
    | some s =>
      dsimp only
      split_ifs
      · simp
      · simp
  · simp [hstatic]
  · simp [hstatic]

theorem wrapf_eq_panicked_iff (format : String) (args : List FmtArg) (failure : Failure) :
  failure.wrapf format args = .panicked ↔ failure = .panicked
  := by
  cases failure with
  | failed err => simp [Failure.wrapf]
  | panicked => simp [Failure.wrapf]

theorem exists_createProviders_iff (types : List String) :
  (∃ providers, createProviders d types = .ok providers) ↔ ∀ t ∈ types, d.Known t
  := by
  induction types with
  | nil => simp [createProviders]
  | cons t types ih =>
    rw [List.forall_mem_cons, ← ih, ← exists_createProvider_iff]
    simp only [createProviders, bind_eq_ok_iff, mapError_eq_ok_iff]
    constructor
    · rintro ⟨providers, provider, hprovider, rest, hrest, -⟩
      use ⟨provider, hprovider⟩, rest, hrest
    · rintro ⟨⟨provider, hprovider⟩, rest, hrest⟩
      use provider :: rest, provider, hprovider, rest, hrest

/-- The providers are those of the types, the static ones with the static peers. -/
theorem mem_of_createProviders {types : List String} {providers : List Provider}
    (h : createProviders d types = .ok providers) {p : Provider} (hp : p ∈ providers) :
  p = .mdns false ∧ "mdns" ∈ types ∨
    "static" ∈ types ∧ ∃ s, d.static = some s ∧ p = .static s.peers
  := by
  induction types generalizing providers with
  | nil =>
    cases h
    cases hp
  | cons t types ih =>
    simp only [createProviders, bind_eq_ok_iff, mapError_eq_ok_iff] at h
    obtain ⟨q, hq, rest, hrest, h⟩ := h
    cases h
    rcases List.mem_cons.mp hp with rfl | hp
    · rw [createProvider] at hq
      split_ifs at hq with hstatic hmdns
      · right
        split at hq
        · cases hq
        · rename_i s hs
          split_ifs at hq
          cases hq
          use hstatic ▸ List.mem_cons_self, s, hs
      · left
        cases hq
        use rfl, hmdns ▸ List.mem_cons_self
    · rcases ih hrest hp with ⟨hmdns, hmem⟩ | ⟨hmem, hstatic⟩
      · left
        use hmdns, List.mem_cons_of_mem t hmem
      · right
        use List.mem_cons_of_mem t hmem

/-- The loop panics at a static provider behind providers that can be made. -/
theorem createProviders_eq_panicked_iff (types : List String) :
  createProviders d types = .error .panicked ↔
    d.static = none ∧ (types.dropWhile (fun t => t == "mdns")).head? = some "static"
  := by
  induction types with
  | nil => simp [createProviders]
  | cons t types ih =>
    simp only [createProviders, bind_eq_error_iff, mapError_eq_error_iff, mapError_eq_ok_iff,
      wrapf_eq_panicked_iff, exists_eq_right, createProvider_eq_panicked_iff, ih, reduceCtorEq,
      and_false, exists_false, or_false]
    by_cases hmdns : t = "mdns"
    · have hmade : ∃ provider, createProvider d t = .ok provider :=
        (exists_createProvider_iff d t).mpr (Or.inl hmdns)
      simp [hmdns] at hmade ⊢
      tauto
    · have hmade : d.static = none → ¬ ∃ provider, createProvider d t = .ok provider := by
        intro hnone
        rw [exists_createProvider_iff, DiscoveryConfig.Known]
        simp [hmdns, hnone]
      have hhead : ((t :: types).dropWhile (fun t => t == "mdns")).head? = some t := by
        rw [List.dropWhile_cons_of_neg (by simpa using hmdns), List.head?_cons]
      rw [hhead, Option.some.injEq, and_comm (a := t = "static")]
      constructor
      · rintro (h | ⟨provider, hprovider, hnone, -⟩)
        · apply h
        · exact absurd ⟨provider, hprovider⟩ (hmade hnone)
      · apply Or.inl

/-- The start of the member list panics, starts no discovery, or starts it with a first round. -/
theorem memberlistStart_cases (w : World) (storage : StateStorage) :
  d.ReadsNil ∧ memberlistStart w d storage = .error .panicked ∨
    ¬ d.ReadsNil ∧ memberlistStart w d storage = .ok (storage, none) ∨
    ¬ d.ReadsNil ∧ d.Discovers ∧ ∃ providers, createProviders d d.providers = .ok providers ∧
      memberlistStart w d storage
        = .ok (storage.runDiscovery
            (w.firstRound.discoveryRound (providers.map (Provider.start w d.mdns))),
          some (providers.map (Provider.start w d.mdns)))
  := by
  by_cases henabled : d.enabled = true
  · have hnil : d.ReadsNil ↔ createProviders d d.providers = .error .panicked := by
      rw [createProviders_eq_panicked_iff, DiscoveryConfig.ReadsNil]
      simp [henabled]
    rw [memberlistStart, if_pos henabled, discoveryStart, henabled, hnil]
    cases hproviders : createProviders d d.providers with
    | error failure =>
      cases failure with
      | failed err =>
        right
        left
        use by simp
        rfl
      | panicked =>
        left
        use rfl
        rfl
    | ok providers =>
      right
      by_cases hempty : providers = []
      · left
        subst hempty
        use by simp
        rfl
      · right
        have hdiscovers : d.Discovers := by
          refine ⟨henabled, ?_, (exists_createProviders_iff d d.providers).mp ⟨_, hproviders⟩⟩
          intro htypes
          rw [htypes] at hproviders
          cases hproviders
          apply hempty rfl
        use by simp, hdiscovers, providers, rfl
        simp only [Bool.not_true, Bool.false_eq_true, if_false, Except.mapError, bind, Except.bind,
          hempty]
  · right
    left
    use fun h => henabled h.1
    rw [memberlistStart, if_neg henabled]

end

/-! ### The node -/

/-- What start-up asks for with Raft storage. -/
structure RaftStartable (c : Config) : Prop where
  nodeID : c.metadata.nodeID ≠ ""
  raftAddress : Advertisable c.storage.raft.bindAddress
  servers : Checked (servers c.storage.raft c.metadata.nodeID)
  memberlist : c.cluster.memberlist.Applicable
  providers : ¬ c.cluster.discovery.ReadsNil

/-- What start-up asks for, and `Validate` does not. -/
structure Startable (c : Config) : Prop where
  server : Listens c.server.address
  raft : c.storage.type = "raft" → c.RaftStartable

section

variable {urlParse : GoString → Except GoError Http.URL} {c : Config}

/-- What start-up needs of a valid configuration. -/
structure Validated (c : Config) : Prop where
  server : c.server.address ≠ ""
  router : ∃ r, Proxy.Router.new c.proxy = .ok r
  queue : c.proxy.reliability.queue.validate = .ok ()
  verifier : ∃ v, c.auth.verifier = .ok v
  storage : c.storage.validate = .ok ()

theorem exists_verifier_of_validate (h : c.auth.validate = .ok ()) :
  ∃ v, c.auth.verifier = .ok v
  := by
  rw [Auth.JWTConfig.verifier]
  split_ifs with hsecret hurl
  · exact ⟨_, rfl⟩
  · exact ⟨_, rfl⟩
  · exfalso
    obtain ⟨-, h⟩ | ⟨-, h⟩ := Auth.JWTConfig.of_validate h
    · apply h (not_not.mp hurl)
    · apply h (not_not.mp hsecret)

theorem queue_of_validate (h : c.proxy.validate urlParse = .ok ()) :
  c.proxy.reliability.queue.validate = .ok ()
  := by
  rw [Proxy.Config.validate] at h
  split at h
  · cases h
  · split at h
    · cases h
    · split at h
      · cases h
      · split at h
        · cases h
        · rename_i hreliability
          rw [Proxy.ReliabilityConfig.validate] at hreliability
          split_ifs at hreliability
          apply hreliability

theorem validated (h : c.validate urlParse = .ok ()) :
  c.Validated
  := by
  simp only [validate, ServerConfig.validate, seq_eq_ok_iff, refuse_eq_ok_iff] at h
  obtain ⟨⟨haddress, -⟩, hproxy, hauth, -, hstorage, -⟩ := h
  use haddress, Proxy.Config.exists_router_of_validate hproxy, queue_of_validate hproxy,
    exists_verifier_of_validate hauth, hstorage

/-- The Raft configuration is valid, and its address is not empty. -/
theorem raft_of_validated (h : c.Validated) (hraft : c.storage.type = "raft") :
  c.storage.raft.validate = .ok () ∧ c.storage.raft.bindAddress ≠ ""
  := by
  obtain hlocal | ⟨hredis, -⟩ | ⟨-, hvalid⟩ := storage_cases h.storage
  · rw [hraft] at hlocal
    exact absurd hlocal (by decide)
  · rw [hraft] at hredis
    exact absurd hredis (by decide)
  · use hvalid
    intro hempty
    rw [RaftConfig.validate, if_pos hempty] at hvalid
    cases hvalid

/-- What `main` has gone through with Raft storage until it has initialised the member list. -/
structure RaftStarted (w : World) (c : Config) (node : Node) (rs : RaftStorage) (addr : String) :
    Prop where
  storage : newRaftStorage w c.storage.raft c.metadata.nodeID = .ok rs
  advertised : convertBindToAdvertiseAddress w c.storage.raft.bindAddress = .ok addr
  memberlist : newMemberlistService w c.cluster.memberlist = .ok ()
  start : memberlistStart w c.cluster.discovery (.raft rs) = .ok (node.storage, node.discovery)
  metadata : node.metadata = some (createNodeMetadata c.metadata.nodeID c.server.address addr
    c.cluster.memberlist.metadata)

/-- What a start goes through. -/
theorem of_main {w : World} {node : Node} (h : main urlParse w c = .ok node) :
  c.validate urlParse = .ok () ∧ listen w c.server.address = .ok () ∧
    (c.storage.type = "raft" → ∃ rs addr, RaftStarted w c node rs addr)
  := by
  simp only [main, bind_eq_ok_iff, lift_eq_ok_iff, wrap_eq_ok_iff] at h
  obtain ⟨⟨⟩, hvalid, verifier, -, storage, hstorage, ⟨storage', metadata, discovery⟩, hcluster,
    service, -, service', -, ⟨⟩, hlisten, h⟩ := h
  cases h
  use hvalid, hlisten
  intro hraft
  rw [newStateStorage, if_neg (by rw [hraft]; decide), if_pos hraft] at hstorage
  simp only [bind_eq_ok_iff] at hstorage
  obtain ⟨rs, hrs, hstorage⟩ := hstorage
  cases hstorage
  rw [startCluster, if_pos (c.isClusterEnabled_iff.mpr hraft)] at hcluster
  simp only [initializeMemberlist, nodeMetadata, bind_eq_ok_iff, lift_eq_ok_iff] at hcluster
  obtain ⟨_, ⟨addr, haddr, hmetadata⟩, ⟨⟩, hmemberlist, ⟨_, _⟩, hstart, hcluster⟩ := hcluster
  cases hmetadata
  cases hcluster
  use rs, addr, hrs, haddr, hmemberlist, hstart

/-- A node that is started without existing state has a configuration that can be started. -/
theorem startable_of_main {w : World} {node : Node} (h : main urlParse w c = .ok node)
    (hstate : w.hasExistingState c.storage.raft.dataDir = .ok false) :
  c.Startable
  := by
  obtain ⟨hvalid, hlisten, hstarted⟩ := of_main h
  have hvalidated := validated hvalid
  use listens_of_listen hvalidated.server hlisten
  intro hraft
  obtain ⟨rs, addr, hstarted⟩ := hstarted hraft
  obtain ⟨-, hne⟩ := raft_of_validated hvalidated hraft
  obtain ⟨hnodeID, haddress, hboot⟩ := newRaftStorage_eq_ok hne hstarted.storage
  rw [hstate] at hboot
  use hnodeID, haddress, checked_of_bootstrapCluster hnodeID hne hboot,
    applicable_of_newMemberlistService hstarted.memberlist
  intro hnil
  have hstart := hstarted.start
  obtain ⟨-, hpanic⟩ | ⟨hnot, -⟩ | ⟨hnot, -⟩ :=
    memberlistStart_cases c.cluster.discovery w (.raft rs)
  · rw [hstart] at hpanic
    cases hpanic
  · apply hnot hnil
  · apply hnot hnil

/-- There are configurations that no node can be started with, without existing state, whatever
the file system, the network and the libraries answer: those that do not meet what start-up asks
for. -/
theorem never_started (h : ¬ c.Startable) :
  ∀ w node, w.hasExistingState c.storage.raft.dataDir = .ok false → main urlParse w c ≠ .ok node
  := by
  intro w node hstate hmain
  apply h (startable_of_main hmain hstate)

/-- A configuration with Raft storage that is bound to all interfaces. -/
def allInterfaces : Config :=
  let c := oneUpstream "raft"
  { c with storage := { c.storage with
      raft := { c.storage.raft with bindAddress := "0.0.0.0:9000" } } }

/-- The configuration is valid, and never starts a node. -/
theorem allInterfaces_never_started :
  allInterfaces.validate Proxy.oneHost = .ok () ∧
    ∀ w node, w.hasExistingState "/data/raft" = .ok false →
      main Proxy.oneHost w allInterfaces ≠ .ok node
  := by
  have hnot : ¬ allInterfaces.Startable := by
    intro h
    obtain ⟨host, port, hsplit, -, -, hhost, -⟩ := (h.raft rfl).raftAddress
    have haddress : splitHostPort allInterfaces.storage.raft.bindAddress
        = .ok ("0.0.0.0", "9000") := by
      decide +kernel
    rw [haddress] at hsplit
    cases hsplit
    apply hhost rfl
  use by decide +kernel
  apply never_started hnot

/-! ### The address that is advertised -/

/-- An address that others can use is advertised as it is. -/
theorem convert_of_advertisable {addr : String} (h : Advertisable addr) (w : World) :
  convertBindToAdvertiseAddress w addr = .ok addr
  := by
  obtain ⟨host, port, hsplit, -, hempty, hall, -⟩ := h
  have hnot : ¬ (host = "0.0.0.0" ∨ host = "") := not_or.mpr ⟨hall, hempty⟩
  simp only [convertBindToAdvertiseAddress, bind_eq_ok_iff, wrap_eq_ok_iff, splitAddress_eq_ok_iff]
  use (host, port), hsplit, if_neg hnot

/-- A world in which nothing goes wrong, no peers are found, and there is no existing state. -/
def World.calm : World where
  channelLimit := 2 ^ 45
  ping _ := .ok ()
  subscribe _ := .ok ()
  mkdirAll _ := .ok ()
  lookupPort _ := .ok 80
  lookupHost host := .ok (.specified host)
  listen _ := .ok ()
  newBoltStore _ _ := .ok ()
  newSnapshotStore _ := .ok ()
  newRaft _ := .ok ()
  hasExistingState _ := .ok false
  bootstrapErr _ := none
  externalIP := .ok "192.0.2.1"
  defaultWANConfig := ⟨"0.0.0.0", 7946, "", 7946, 500000000, 4, 5 * second, 3 * second, [], "node"⟩
  createMemberlist _ := .ok ()
  startMDNS _ := .ok ()
  firstRound := ⟨[], fun _ => [], none, none⟩

/-- A node is started if nothing goes wrong. -/
theorem exists_main_calm {c : Config} (h : (main Proxy.oneHost .calm c).isOk = true) :
  ∃ node, main Proxy.oneHost .calm c = .ok node
  := by
  cases hmain : main Proxy.oneHost .calm c with
  | error failure =>
    rw [hmain] at h
    cases h
  | ok node => use node

theorem lift_ne_panicked {α : Type} (result : Except GoError α) :
  lift result ≠ .error .panicked
  := by
  cases result with
  | error err => simp [lift, Except.mapError]
  | ok a => simp [lift, Except.mapError]

/-- The queue is enabled, and larger than a channel can be made. -/
def QueueTooLarge (w : World) (c : Config) : Prop :=
  c.proxy.reliability.queue.enabled = true ∧
    w.channelLimit < c.proxy.reliability.queue.maxSize

/-- The proxy service is made and started, or its queue makes it panic. -/
theorem newEnhancedService_cases (hvalid : c.Validated) (w : World) :
  QueueTooLarge w c ∧ newEnhancedService w c.proxy = .error .panicked ∨
    ¬ QueueTooLarge w c ∧ ∃ service started, newEnhancedService w c.proxy = .ok service ∧
      service.start c.proxy.routing.healthCheck.interval = .ok started
  := by
  obtain ⟨router, hrouter⟩ := hvalid.router
  have hstart : ∀ queueSize, ∃ started, (EnhancedService.mk router queueSize false).start
      c.proxy.routing.healthCheck.interval = .ok started := by
    intro queueSize
    rw [EnhancedService.start, EnhancedService.startMonitoring]
    by_cases hinterval : c.proxy.routing.healthCheck.interval ≤ 0
    · rw [if_pos hinterval]
      exact ⟨_, rfl⟩
    · rw [if_neg hinterval, if_neg Bool.false_ne_true]
      exact ⟨_, rfl⟩
  have hqueue := hvalid.queue
  rw [newEnhancedService, hrouter, newQueue, QueueTooLarge]
  rw [Proxy.QueueConfig.validate] at hqueue
  by_cases henabled : c.proxy.reliability.queue.enabled = true
  · rw [if_pos henabled] at hqueue
    split_ifs at hqueue with hsize htimeout
    rw [if_pos henabled, newMemoryQueue]
    by_cases hlarge : w.channelLimit < c.proxy.reliability.queue.maxSize
    · left
      use ⟨henabled, hlarge⟩
      rw [if_pos (Or.inr hlarge)]
      rfl
    · right
      obtain ⟨started, hstarted⟩ := hstart (some c.proxy.reliability.queue.maxSize)
      have hsmall : ¬ (c.proxy.reliability.queue.maxSize < 0 ∨
          w.channelLimit < c.proxy.reliability.queue.maxSize) := by
        omega
      rw [if_neg hsmall]
      exact ⟨fun h => hlarge h.2, _, started, rfl, hstarted⟩
  · right
    obtain ⟨started, hstarted⟩ := hstart none
    rw [if_neg henabled]
    exact ⟨fun h => henabled h.1, _, started, rfl, hstarted⟩

/-- Once there are a storage and a member list, the cluster is started, or a static provider makes
it panic. -/
theorem startCluster_cases (hvalid : c.Validated) {w : World} {storage : StateStorage}
    (hstorage : newStateStorage w c.storage c.metadata.nodeID = .ok storage)
    (hmemberlist : c.storage.type = "raft" →
      newMemberlistService w c.cluster.memberlist = .ok ()) :
  (c.storage.type = "raft" ∧ c.cluster.discovery.ReadsNil) ∧
      startCluster w c storage = .error .panicked ∨
    ¬ (c.storage.type = "raft" ∧ c.cluster.discovery.ReadsNil) ∧
      ∃ result, startCluster w c storage = .ok result
  := by
  rw [startCluster]
  by_cases hraft : c.storage.type = "raft"
  · rw [newStateStorage, if_neg (by rw [hraft]; decide), if_pos hraft] at hstorage
    simp only [bind_eq_ok_iff] at hstorage
    obtain ⟨rs, hrs, hstorage⟩ := hstorage
    cases hstorage
    obtain ⟨-, hne⟩ := raft_of_validated hvalid hraft
    obtain ⟨-, hadvertisable, -⟩ := newRaftStorage_eq_ok hne hrs
    rw [if_pos (c.isClusterEnabled_iff.mpr hraft), initializeMemberlist, nodeMetadata,
      convert_of_advertisable hadvertisable w, hmemberlist hraft]
    obtain ⟨hnil, hpanic⟩ | ⟨hnot, hstart⟩ | ⟨hnot, -, providers, -, hstart⟩ :=
      memberlistStart_cases c.cluster.discovery w (.raft rs)
    · left
      use ⟨hraft, hnil⟩
      rw [hpanic]
      rfl
    · right
      rw [hstart]
      exact ⟨fun h => hnot h.2, _, rfl⟩
    · right
      rw [hstart]
      exact ⟨fun h => hnot h.2, _, rfl⟩
  · right
    rw [if_neg (mt c.isClusterEnabled_iff.mp hraft)]
    exact ⟨fun h => hraft h.1, _, rfl⟩

/-- Once there are a storage and, with Raft, a member list, the start of a node with a valid
configuration panics exactly if a static provider is to be made without a static configuration, or
if the queue is too large for a channel. -/
theorem panics_iff (hvalid : c.validate urlParse = .ok ()) {w : World} {storage : StateStorage}
    (hstorage : newStateStorage w c.storage c.metadata.nodeID = .ok storage)
    (hmemberlist : c.storage.type = "raft" →
      newMemberlistService w c.cluster.memberlist = .ok ()) :
  main urlParse w c = .error .panicked ↔
    c.storage.type = "raft" ∧ c.cluster.discovery.ReadsNil ∨ QueueTooLarge w c
  := by
  have hvalidated := validated hvalid
  obtain ⟨verifier, hverifier⟩ := hvalidated.verifier
  rw [main, hvalid, hverifier, hstorage]
  obtain ⟨hnil, hcluster⟩ | ⟨hnil, ⟨storage', metadata, discovery⟩, hcluster⟩ :=
    startCluster_cases hvalidated hstorage hmemberlist
  · apply iff_of_true _ (Or.inl hnil)
    change (startCluster w c storage >>= _) = _
    rw [hcluster]
    rfl
  · rw [or_iff_right hnil]
    change (startCluster w c storage >>= _) = _ ↔ _
    rw [hcluster]
    obtain ⟨hlarge, hservice⟩ | ⟨hlarge, service, started, hservice, hstarted⟩ :=
      newEnhancedService_cases hvalidated w
    · apply iff_of_true _ hlarge
      change (newEnhancedService w c.proxy >>= _) = _
      rw [hservice]
      rfl
    · apply iff_of_false _ hlarge
      change ¬ (newEnhancedService w c.proxy >>= _) = _
      rw [hservice]
      change ¬ (lift (service.start _) >>= _) = _
      rw [hstarted]
      change ¬ (lift (listen w c.server.address) >>= _) = _
      intro hpanic
      obtain hlisten | ⟨-, -, ⟨⟩⟩ := (bind_eq_error_iff _ _ _).mp hpanic
      apply lift_ne_panicked _ hlisten

/-- A configuration with Raft storage and static discovery, without any static peers. -/
def staticOnly : Config :=
  let c := oneUpstream "raft"
  { c with cluster := { c.cluster with discovery :=
      { c.cluster.discovery with enabled := true, providers := ["mdns", "static"] } } }

/-- A configuration with local storage and a queue larger than any channel. -/
def hugeQueue : Config :=
  let c := oneUpstream "local"
  { c with proxy := { c.proxy with reliability :=
      { c.proxy.reliability with queue := ⟨true, 2 ^ 60, second⟩ } } }

/-- Both configurations are valid, and make the start of a node panic. -/
theorem staticOnly_hugeQueue_panic :
  staticOnly.validate Proxy.oneHost = .ok () ∧ hugeQueue.validate Proxy.oneHost = .ok () ∧
    main Proxy.oneHost .calm staticOnly = .error .panicked ∧
    main Proxy.oneHost .calm hugeQueue = .error .panicked
  := by
  have hstatic : staticOnly.validate Proxy.oneHost = .ok () := by decide +kernel
  have hqueue : hugeQueue.validate Proxy.oneHost = .ok () := by decide +kernel
  use hstatic, hqueue
  constructor
  · apply (panics_iff hstatic rfl (fun _ => by decide +kernel)).mpr
    left
    use rfl, rfl, rfl
    decide +kernel
  · apply (panics_iff hqueue rfl (fun hraft => absurd hraft (by decide))).mpr
    right
    use rfl
    decide +kernel

end

end Config

end VmProxyAuth
