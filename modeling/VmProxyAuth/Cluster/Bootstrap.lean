import VmProxyAuth.Cluster.Delegate

/-!
# Bootstrap

How a node makes its initial Raft configuration: at its start from the peers it is
configured with, or alone, or, when it expects a number of servers, in a round of discovery
that finds enough peers (`tryDelayedBootstrap`).  The delayed bootstrap makes a configuration
of the node alone, whatever peers were discovered.
-/

namespace VmProxyAuth

namespace Cluster

/-- `RaftConfig`. -/
structure RaftConfig where
  bindAddress : String
  dataDir : String
  bootstrapExpected : ℤ
  peers : List String
  deriving DecidableEq, Repr

/-- `Validate` of the Raft configuration. -/
def RaftConfig.validate (r : RaftConfig) : Except GoError Unit :=
  if r.bindAddress = "" then .error (.errorf "raft bind address is required" [])
  else if r.dataDir = "" then .error (.errorf "raft data directory is required" [])
  else if r.bootstrapExpected < 0 then
    .error (.errorf "raft bootstrap expected must be non-negative, got %d"
      [.int r.bootstrapExpected])
  else if 0 < r.bootstrapExpected ∧ r.peers ≠ [] then
    .error (.errorf "cannot specify both bootstrap expected and static peers for raft" [])
  else .ok ()

/-- A valid configuration that expects servers has no static peers. -/
theorem RaftConfig.peers_eq_nil {r : RaftConfig} (h : r.validate = .ok ())
    (hexpected : 0 < r.bootstrapExpected) :
  r.peers = []
  := by
  by_contra hpeers
  rw [validate] at h
  split_ifs at h with haddress hdir hnegative hboth
  exact hboth ⟨hexpected, hpeers⟩

/-- The parts of `RaftStorageConfig` that bootstrap reads. -/
structure RaftStorageConfig where
  nodeID : String
  bindAddress : String
  peers : List String
  bootstrapExpected : ℤ
  deriving DecidableEq, Repr

/-- The storage configuration made for a node from its Raft configuration. -/
def RaftConfig.storageConfig (r : RaftConfig) (nodeID : String) : RaftStorageConfig :=
  ⟨nodeID, r.bindAddress, r.peers, r.bootstrapExpected⟩

/-- `RaftStorage`, with the configuration it was bootstrapped with. -/
structure RaftStorage where
  config : RaftStorageConfig
  bootstrapDeferred : Bool
  bootstrapped : Option Configuration

namespace RaftStorage

/-- The node itself as a server. -/
def self (rs : RaftStorage) : Server := ⟨rs.config.nodeID, rs.config.bindAddress⟩

/-- `BootstrapCluster` of the Raft library, which refuses servers with the same identifier
and otherwise gives the answer `err`.  The answer stands for what can go wrong on the disk and for
the other servers the library refuses: those with an empty identifier, or with an empty address or
the address of another server. -/
def raftBootstrap (rs : RaftStorage) (servers : List Server) (err : Option GoError) :
    RaftStorage × Option GoError :=
  if h : (servers.map Servers.Server.id).Nodup then
    match err with
    | none => ({ rs with bootstrapped := some ⟨servers, h⟩ }, none)
    | some e => (rs, some e)
  else (rs, some (.library "raft"))

/-- Bootstrap with the given servers, wrapping the error. -/
def bootstrapServers (rs : RaftStorage) (format : String) (servers : List Server)
    (err : Option GoError) : RaftStorage × Option GoError :=
  let (rs', err') := rs.raftBootstrap servers err
  (rs', err'.map (GoError.wrapf format []))

/-- The server a peer of the form `nodeID:address` names. -/
def parsePeer (peer : String) : Option Server :=
  match peer.splitOn ":" with
  | nodeID :: part :: parts => some ⟨nodeID, ":".intercalate (part :: parts)⟩
  | _ => none

/-- `bootstrapWithStaticPeers`. -/
def bootstrapWithStaticPeers (rs : RaftStorage) (err : Option GoError) :
    RaftStorage × Option GoError :=
  rs.bootstrapServers "failed to bootstrap cluster: %w"
    (rs.self :: (rs.config.peers.filter (fun peer =>
      peer ≠ rs.config.nodeID ++ ":" ++ rs.config.bindAddress)).filterMap parsePeer) err

/-- `bootstrapWithDiscoveredPeers`, which does not use the peers. -/
def bootstrapWithDiscoveredPeers (rs : RaftStorage) (_discoveredPeers : List String)
    (err : Option GoError) : RaftStorage × Option GoError :=
  rs.bootstrapServers "failed to bootstrap cluster: %w" [rs.self] err

/-- `bootstrapSingleNode`. -/
def bootstrapSingleNode (rs : RaftStorage) (err : Option GoError) :
    RaftStorage × Option GoError :=
  rs.bootstrapServers "failed to bootstrap single-node cluster: %w" [rs.self] err

/-- `maybeBootstrap`. -/
def maybeBootstrap (rs : RaftStorage) : RaftStorage × Option GoError :=
  ({ rs with bootstrapDeferred := true }, none)

/-- `bootstrapCluster`, given whether there is existing state and the answer of the Raft
library. -/
def bootstrapCluster (rs : RaftStorage) (hasState : Except GoError Bool) (err : Option GoError) :
    RaftStorage × Option GoError :=
  match hasState with
  | .error e => (rs, some (.wrapf "failed to check existing state: %w" [] e))
  | .ok true => (rs, none)
  | .ok false =>
    if rs.config.peers ≠ [] then rs.bootstrapWithStaticPeers err
    else if 0 < rs.config.bootstrapExpected then rs.maybeBootstrap
    else rs.bootstrapSingleNode err

/-- `TryDelayedBootstrap`. -/
def tryDelayedBootstrap (rs : RaftStorage) (discoveredPeers : List String)
    (err : Option GoError) : RaftStorage × Option GoError :=
  if !rs.bootstrapDeferred then (rs, none)
  else if (discoveredPeers.length : ℤ) + 1 < rs.config.bootstrapExpected then (rs, none)
  else { rs with bootstrapDeferred := false }.bootstrapWithDiscoveredPeers discoveredPeers err

end RaftStorage

/-! ### Discovery -/

/-- A round of discovery: whether there is a peer joiner and a Raft manager, the addresses and
ports of the members if there is a member getter, what each provider finds, and the answers
of `Join` and of the Raft library. -/
structure DiscoveryRound where
  hasPeerJoiner : Bool
  hasRaftManager : Bool
  members : Option (List (String × ℕ))
  discovered : List (Except GoError (List String))
  joinErr : Option GoError
  raftErr : Option GoError

namespace DiscoveryRound

/-- `isSelfAddress`. -/
def isSelfAddress (_ : String) : Bool := false

/-- `isAlreadyConnected`. -/
def isAlreadyConnected (r : DiscoveryRound) (peerAddr : String) : Bool :=
  match r.members with
  | none => false
  | some members => members.any (fun m => m.1 ++ ":" ++ toString m.2 == peerAddr)

/-- The loop of `filterPeers`, with the peers seen. -/
def filterFrom (r : DiscoveryRound) : List String → List String → List String
  | _, [] => []
  | seen, peer :: peers =>
    if peer ∈ seen then r.filterFrom seen peers
    else if isSelfAddress peer || r.isAlreadyConnected peer then r.filterFrom (peer :: seen) peers
    else peer :: r.filterFrom (peer :: seen) peers

/-- `filterPeers`. -/
def filterPeers (r : DiscoveryRound) (peers : List String) : List String := r.filterFrom [] peers

/-- The peers of all providers that do not fail. -/
def allPeers (r : DiscoveryRound) : List String :=
  r.discovered.flatMap (fun result =>
    match result with
    | .ok peers => peers
    | .error _ => [])

/-- `runDiscovery`, with the error of the bootstrap, which is logged. -/
def runDiscovery (r : DiscoveryRound) (rs : RaftStorage) : RaftStorage × Option GoError :=
  if !r.hasPeerJoiner then (rs, none)
  else if r.allPeers = [] then (rs, none)
  else if r.filterPeers r.allPeers = [] then (rs, none)
  else if r.joinErr.isSome then (rs, none)
  else if r.hasRaftManager then rs.tryDelayedBootstrap (r.filterPeers r.allPeers) r.raftErr
  else (rs, none)

end DiscoveryRound

end Cluster

end VmProxyAuth
