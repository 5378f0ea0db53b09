import VmProxyAuth.Cluster.Formation
import VmProxyAuth.Lib.SplitOn

/-!
# Bootstrap with static peers

The nodes of a cluster are all configured with the same list of peers, of the form
`nodeID:address`.  Each node takes itself off the list and reads the others.  As an identifier has
no colon, an address may have any number of them, and all nodes bootstrap with the same servers,
each with itself first (`static_servers_agree`).
-/

namespace VmProxyAuth

namespace Cluster

/-- A node as a peer. -/
def peerText (n : Server) : String := n.id ++ ":" ++ n.address

namespace RaftStorage

/-- The servers of `bootstrapWithStaticPeers`. -/
def staticServers (rs : RaftStorage) : List Server :=
  rs.self :: (rs.config.peers.filter (fun peer => peer ≠ peerText rs.self)).filterMap parsePeer

theorem bootstrapWithStaticPeers_eq (rs : RaftStorage) (err : Option GoError) :
  rs.bootstrapWithStaticPeers err
    = rs.bootstrapServers "failed to bootstrap cluster: %w" rs.staticServers err
  := rfl

/-- A node is read as it was written. -/
theorem parsePeer_peerText {n : Server} (h : ':' ∉ n.id.toList) :
  parsePeer (peerText n) = some n
  := by
  obtain ⟨part, parts, hsplit, hjoined⟩ := SplitOn.splitOn_append h n.address
  have hpeer : (peerText n).splitOn ":" = n.id :: part :: parts := hsplit
  have haddress : ":".intercalate (part :: parts) = n.address := hjoined
  rw [parsePeer, hpeer]
  simp only [haddress]

end RaftStorage

/-- A node is one of the given ones, and is configured with the peers. -/
structure Configured (nodes : Configuration) (peers : List String) (rs : RaftStorage) : Prop where
  node : rs.self ∈ nodes.servers
  peers : rs.config.peers = peers

section

variable {nodes : Configuration} {peers : List String}

/-- The nodes without colons in their identifiers are told apart as peers. -/
theorem peerText_eq_iff (hids : ∀ n ∈ nodes.servers, ':' ∉ n.id.toList) {n m : Server}
    (hn : n ∈ nodes.servers) (hm : m ∈ nodes.servers) :
  peerText n = peerText m ↔ n = m
  := by
  constructor
  · intro h
    have hread := congrArg RaftStorage.parsePeer h
    rw [RaftStorage.parsePeer_peerText (hids n hn), RaftStorage.parsePeer_peerText (hids m hm)]
      at hread
    apply Option.some.inj hread
  · rintro rfl
    rfl

/-- What a node reads are the other nodes. -/
theorem filterMap_parsePeer (hids : ∀ n ∈ nodes.servers, ':' ∉ n.id.toList) {n : Server}
    (hn : n ∈ nodes.servers) :
  ((nodes.servers.map peerText).filter (fun peer => peer ≠ peerText n)).filterMap
      RaftStorage.parsePeer
    = nodes.servers.erase n
  := by
  have hother : ∀ m ∈ nodes.servers,
      ((fun peer => decide (peer ≠ peerText n)) ∘ peerText) m = (m != n) := by
    intro m hm
    by_cases hmn : m = n
    · simp [hmn]
    · have hne : peerText m ≠ peerText n := mt (peerText_eq_iff hids hm hn).mp hmn
      simp [hmn, hne]
  have hread : ∀ m ∈ nodes.servers.filter (· != n),
      (RaftStorage.parsePeer ∘ peerText) m = some m := by
    intro m hm
    apply RaftStorage.parsePeer_peerText (hids m (List.mem_of_mem_filter hm))
  have hnodup : nodes.servers.Nodup := List.Nodup.of_map _ nodes.nodup
  rw [List.filter_map, List.filterMap_map, List.filter_congr hother, List.filterMap_congr hread,
    List.filterMap_some, hnodup.erase_eq_filter]

/-- The servers of a node are the nodes. -/
theorem perm_staticServers (hids : ∀ n ∈ nodes.servers, ':' ∉ n.id.toList)
    (hpeers : peers.Perm (nodes.servers.map peerText)) {rs : RaftStorage}
    (h : Configured nodes peers rs) :
  rs.staticServers.Perm nodes.servers
  := by
  have hperm := (hpeers.filter (fun peer => peer ≠ peerText rs.self)).filterMap
    RaftStorage.parsePeer
  rw [filterMap_parsePeer hids h.node] at hperm
  rw [RaftStorage.staticServers, h.peers]
  apply (hperm.cons rs.self).trans
  apply (List.perm_cons_erase h.node).symm

/-- A node bootstraps with its servers, if the Raft library accepts them. -/
theorem bootstrapCluster_of_configured (hids : ∀ n ∈ nodes.servers, ':' ∉ n.id.toList)
    (hpeers : peers.Perm (nodes.servers.map peerText)) {rs : RaftStorage}
    (h : Configured nodes peers rs) :
  ∃ c : Configuration, c.servers = rs.staticServers ∧
    rs.bootstrapCluster (.ok false) none = ({ rs with bootstrapped := some c }, none)
  := by
  have hnodup : (rs.staticServers.map Servers.Server.id).Nodup :=
    ((perm_staticServers hids hpeers h).map _).nodup_iff.mpr nodes.nodup
  have hne : rs.config.peers ≠ [] := by
    rw [h.peers]
    apply List.ne_nil_of_mem
    apply hpeers.mem_iff.mpr (List.mem_map_of_mem h.node)
  use ⟨rs.staticServers, hnodup⟩, rfl
  rw [RaftStorage.bootstrapCluster]
  simp only [if_pos hne]
  rw [RaftStorage.bootstrapWithStaticPeers_eq, RaftStorage.bootstrapServers,
    RaftStorage.raftBootstrap, dif_pos hnodup]
  rfl

/-- If all nodes are configured with the same peers, each of them once and in any order, they
bootstrap with the same servers up to their order: all nodes, each with its own address, and the
node itself first. -/
theorem static_servers_agree (hids : ∀ n ∈ nodes.servers, ':' ∉ n.id.toList)
    (hpeers : peers.Perm (nodes.servers.map peerText)) {rs rs' : RaftStorage}
    (h : Configured nodes peers rs) (h' : Configured nodes peers rs') :
  ∃ c c' : Configuration,
    rs.bootstrapCluster (.ok false) none = ({ rs with bootstrapped := some c }, none) ∧
    rs'.bootstrapCluster (.ok false) none = ({ rs' with bootstrapped := some c' }, none) ∧
    c.servers.Perm c'.servers ∧ c.servers.Perm nodes.servers ∧
    c.servers.head? = some rs.self ∧ c'.servers.head? = some rs'.self
  := by
  obtain ⟨c, hc, hbootstrap⟩ := bootstrapCluster_of_configured hids hpeers h
  obtain ⟨c', hc', hbootstrap'⟩ := bootstrapCluster_of_configured hids hpeers h'
  have hperm := perm_staticServers hids hpeers h
  refine ⟨c, c', hbootstrap, hbootstrap', ?_, ?_, ?_, ?_⟩
  · rw [hc, hc']
    apply hperm.trans (perm_staticServers hids hpeers h').symm
  · rw [hc]
    apply hperm
  · rw [hc]
    rfl
  · rw [hc']
    rfl

end

/-- Two nodes, one of them with an IPv6 address, and the peers in another order. -/
theorem two_static_servers_agree :
  let nodes : Configuration :=
    ⟨[⟨"n1", "10.0.0.1:9000"⟩, ⟨"n2", "[fd00::2]:9000"⟩], by decide⟩
  let peers := ["n2:[fd00::2]:9000", "n1:10.0.0.1:9000"]
  let rs : RaftStorage := ⟨⟨"n1", "10.0.0.1:9000", peers, 0⟩, false, none⟩
  let rs' : RaftStorage := ⟨⟨"n2", "[fd00::2]:9000", peers, 0⟩, false, none⟩
  ∃ c c' : Configuration,
    rs.bootstrapCluster (.ok false) none = ({ rs with bootstrapped := some c }, none) ∧
    rs'.bootstrapCluster (.ok false) none = ({ rs' with bootstrapped := some c' }, none) ∧
    c.servers.Perm c'.servers ∧ c.servers.Perm nodes.servers ∧
    c.servers.head? = some rs.self ∧ c'.servers.head? = some rs'.self
  := by
  intro nodes peers rs rs'
  have hpeers : peers.Perm (nodes.servers.map peerText) := by decide
  have hids : ∀ n ∈ nodes.servers, ':' ∉ n.id.toList := by decide
  exact static_servers_agree hids hpeers ⟨by decide, rfl⟩ ⟨by decide, rfl⟩

end Cluster

end VmProxyAuth
