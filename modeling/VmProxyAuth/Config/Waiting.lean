import VmProxyAuth.Cluster.Threshold
import VmProxyAuth.Config.Startable
import VmProxyAuth.Lib.Machine

/-!
# Nodes that wait

A node that expects servers puts off its bootstrap until discovery has found them.  Only the
discovery service ever tries again.  If it does not run, as with the default configuration, or with
a provider that is not known, or if its providers cannot find peers enough, the node serves
requests and never bootstraps, whatever peers it joins (`never_bootstraps`).  A static provider
finds its peers and no others, and one for mDNS finds nothing unless it has a host name to
announce, which by default it has not.
-/

namespace VmProxyAuth

namespace Config

open Checks Cluster

/-! ### Rounds -/

/-- A node that runs rounds of discovery if its discovery service runs. -/
def machine : Machine Node Round where
  step node r :=
    match node.discovery with
    | some providers =>
      some { node with storage := node.storage.runDiscovery (r.discoveryRound providers) }
    | none => none

/-- The configuration a storage was bootstrapped with. -/
def StateStorage.bootstrapped : StateStorage → Option Configuration
  | .raft rs => rs.bootstrapped
  | .local => none
  | .redis _ => none

/-- No node that is started with the configuration, without existing state, ever bootstraps. -/
def NeverBootstraps (urlParse : GoString → Except GoError Http.URL) (c : Config) : Prop :=
  ∀ w node, w.hasExistingState c.storage.raft.dataDir = .ok false →
    main urlParse w c = .ok node →
    ∀ rounds t, machine.run node rounds = some t → t.storage.bootstrapped = none

/-! ### What providers can find -/

/-- The addresses among the static peers. -/
def DiscoveryConfig.staticPeers (d : DiscoveryConfig) : List String :=
  (d.static.elim [] StaticConfig.peers).filter IsAddress

/-- Discovery runs, and its providers can find the servers that are expected: an mDNS provider can
be started, or there are static peers enough. -/
structure DiscoveryConfig.CanFind (d : DiscoveryConfig) (expected : ℤ) : Prop where
  discovers : d.Discovers
  enough : "mdns" ∈ d.providers ∧ newMDNSService d.mdns = .ok () ∨
    "static" ∈ d.providers ∧ expected ≤ d.staticPeers.toFinset.card + 1

section

variable {d : DiscoveryConfig} {expected : ℤ} {providers : List Provider}

/-- A provider that finds static peers only, or nothing. -/
def Limited (d : DiscoveryConfig) (p : Provider) : Prop :=
  ∀ found, ∀ peer ∈ p.discover found, peer ∈ d.staticPeers ∧ "static" ∈ d.providers

/-- Without an mDNS provider that can be started, all providers find static peers only. -/
theorem limited_of_createProviders (hproviders : createProviders d d.providers = .ok providers)
    (h : ¬ ("mdns" ∈ d.providers ∧ newMDNSService d.mdns = .ok ())) (w : World) :
  ∀ p ∈ providers.map (Provider.start w d.mdns), Limited d p
  := by
  intro p hp found peer hpeer
  obtain ⟨q, hq, rfl⟩ := List.mem_map.mp hp
  rcases mem_of_createProviders d hproviders hq with ⟨rfl, hmdns⟩ | ⟨hmem, s, hs, rfl⟩
  · -- the service is refused, so the provider does not run
    have hrefused : ∃ err, newMDNSService d.mdns = .error err := by
      cases hservice : newMDNSService d.mdns with
      | error err => use err
      | ok _ => exact absurd ⟨hmdns, hservice⟩ h
    obtain ⟨err, herr⟩ := hrefused
    rw [Provider.start, herr] at hpeer
    cases hpeer
  · rw [DiscoveryConfig.staticPeers, hs]
    use hpeer

theorem allPeers_discoveryRound (r : Round) (providers : List Provider) (hasRaftManager : Bool)
    {peer : String} (h : peer ∈ (r.discoveryRound providers hasRaftManager).allPeers) :
  ∃ p ∈ providers, ∃ found, peer ∈ p.discover found
  := by
  rw [DiscoveryRound.allPeers, Round.discoveryRound, List.mem_flatMap] at h
  obtain ⟨result, hresult, hpeer⟩ := h
  obtain ⟨i, hi, rfl⟩ := List.mem_mapIdx.mp hresult
  use providers.get ⟨i, hi⟩, List.get_mem _ _, r.found i, hpeer

/-- A round of providers that find too few peers changes nothing. -/
theorem runDiscovery_eq_self (hlimited : ∀ p ∈ providers, Limited d p) {rs : RaftStorage}
    (h : ¬ ("static" ∈ d.providers ∧
      rs.config.bootstrapExpected ≤ d.staticPeers.toFinset.card + 1)) (r : Round) :
  ((r.discoveryRound providers true).runDiscovery rs).1 = rs
  := by
  have hpeers : ∀ peer ∈ (r.discoveryRound providers true).allPeers,
      peer ∈ d.staticPeers ∧ "static" ∈ d.providers := by
    intro peer hpeer
    obtain ⟨p, hp, found, hfound⟩ := allPeers_discoveryRound r providers true hpeer
    apply hlimited p hp found peer hfound
  rw [DiscoveryRound.runDiscovery]
  by_cases hnone : (r.discoveryRound providers true).allPeers = []
  · rw [if_neg (by simp [Round.discoveryRound]), if_pos hnone]
  · obtain ⟨peer, hpeer⟩ := List.exists_mem_of_ne_nil _ hnone
    have hfew : ((r.discoveryRound providers true).fresh.card : ℤ) + 1
        < rs.config.bootstrapExpected := by
      have hcard : (r.discoveryRound providers true).fresh.card ≤ d.staticPeers.toFinset.card := by
        apply Finset.card_le_card
        intro peer hfresh
        have hall := (Finset.mem_sdiff.mp hfresh).1
        rw [List.mem_toFinset] at hall ⊢
        apply (hpeers peer hall).1
      have hlt := not_le.mp (fun hle => h ⟨(hpeers peer hpeer).2, hle⟩)
      omega
    have hwaits : (rs.tryDelayedBootstrap ((r.discoveryRound providers true).filterPeers
        (r.discoveryRound providers true).allPeers) r.raftErr).1 = rs := by
      rw [RaftStorage.tryDelayedBootstrap, DiscoveryRound.length_filterPeers, if_pos hfew, ite_self]
    split_ifs
    · rfl
    · rfl
    · rfl
    · apply hwaits
    · rfl

end

/-! ### Nodes that never bootstrap -/

section

variable {urlParse : GoString → Except GoError Http.URL} {c : Config}

/-- A node that expects servers puts off its bootstrap at its first start. -/
theorem bootstrapCluster_of_expected {r : RaftConfig} {nodeID : String}
    (hvalid : r.validate = .ok ()) (hexpected : 0 < r.bootstrapExpected) {err : Option GoError}
    {rs : RaftStorage}
    (h : RaftStorage.bootstrapCluster ⟨r.storageConfig nodeID, false, none⟩ (.ok false) err
      = (rs, none)) :
  rs.bootstrapped = none ∧ rs.config.bootstrapExpected = r.bootstrapExpected
  := by
  have hpeers := r.peers_eq_nil hvalid hexpected
  rw [RaftStorage.bootstrapCluster] at h
  split_ifs at h with hstatic hdeferred
  · exact absurd hpeers hstatic
  · cases h
    use rfl
    rfl
  · exact absurd hexpected hdeferred

/-- A node whose storage no round of its discovery service changes. -/
def Stuck (storage : StateStorage) (node : Node) : Prop :=
  node.storage = storage ∧ ∀ providers, node.discovery = some providers →
    ∀ r : Round, storage.runDiscovery (r.discoveryRound providers) = storage

theorem stuck_step {storage : StateStorage} {node node' : Node} {r : Round}
    (h : Stuck storage node) (hstep : machine.step node r = some node') :
  Stuck storage node'
  := by
  dsimp only [machine] at hstep
  split at hstep
  · rename_i providers hproviders
    obtain rfl := Option.some.inj hstep
    have hsame := h.2 providers hproviders r
    rw [← h.1] at hsame
    use hsame.trans h.1, h.2
  · cases hstep

theorem stuck_run {storage : StateStorage} {node node' : Node} {rounds : List Round}
    (h : Stuck storage node) (hrun : machine.run node rounds = some node') :
  Stuck storage node'
  := by
  induction rounds generalizing node with
  | nil =>
    obtain rfl := Option.some.inj hrun
    apply h
  | cons r rounds ih =>
    obtain ⟨u, hu, hrest⟩ := (Machine.run_cons _).mp hrun
    apply ih (stuck_step h hu) hrest

/-- A node that expects servers never bootstraps, in any world and any run of rounds, if its
discovery cannot find them. -/
theorem never_bootstraps (hraft : c.storage.type = "raft")
    (hexpected : 0 < c.storage.raft.bootstrapExpected)
    (h : ¬ c.cluster.discovery.CanFind c.storage.raft.bootstrapExpected) :
  NeverBootstraps urlParse c
  := by
  intro w node hstate hmain rounds t hrun
  obtain ⟨hvalid, -, hstarted⟩ := of_main hmain
  obtain ⟨rs, addr, hstarted⟩ := hstarted hraft
  obtain ⟨hvalidRaft, hne⟩ := raft_of_validated (validated hvalid) hraft
  obtain ⟨-, -, hboot⟩ := newRaftStorage_eq_ok hne hstarted.storage
  rw [hstate] at hboot
  obtain ⟨hnone, hconfig⟩ := bootstrapCluster_of_expected hvalidRaft hexpected hboot
  have hstuck : Stuck (.raft rs) node := by
    have hstart := hstarted.start
    obtain ⟨-, hpanic⟩ | ⟨-, hidle⟩ | ⟨-, hdiscovers, providers, hproviders, hruns⟩ :=
      memberlistStart_cases c.cluster.discovery w (.raft rs)
    · rw [hstart] at hpanic
      cases hpanic
    · rw [hstart] at hidle
      obtain ⟨hstorage, hdiscovery⟩ := Prod.mk.inj (Except.ok.inj hidle)
      use hstorage
      intro providers hproviders
      rw [hdiscovery] at hproviders
      cases hproviders
    · have hfew := not_or.mp (mt (DiscoveryConfig.CanFind.mk hdiscovers) h)
      rw [← hconfig] at hfew
      have hsame : ∀ r : Round, (StateStorage.raft rs).runDiscovery
          (r.discoveryRound (providers.map (Provider.start w c.cluster.discovery.mdns)))
            = .raft rs := by
        intro r
        rw [StateStorage.runDiscovery, runDiscovery_eq_self
          (limited_of_createProviders hproviders hfew.1 w) hfew.2]
      rw [hstart] at hruns
      obtain ⟨hstorage, hdiscovery⟩ := Prod.mk.inj (Except.ok.inj hruns)
      use hstorage.trans (hsame w.firstRound)
      intro started hstartedProviders r
      rw [hdiscovery] at hstartedProviders
      obtain rfl := Option.some.inj hstartedProviders
      apply hsame
  rw [(stuck_run hstuck hrun).1]
  apply hnone

end

/-- A configuration with Raft storage that expects three servers, and has one static peer and an
mDNS provider without a host name. -/
def onePeer : Config :=
  let c := oneUpstream "raft"
  { c with
    storage := { c.storage with raft := { c.storage.raft with bootstrapExpected := 3 } }
    cluster := { c.cluster with discovery :=
      { c.cluster.discovery with
        enabled := true
        providers := ["mdns", "static"]
        static := some ⟨["10.0.0.2:7946"]⟩ } } }

/-- A node is started with the configuration, and never bootstraps. -/
theorem onePeer_never_bootstraps :
  onePeer.validate Proxy.oneHost = .ok () ∧
    (∃ node, main Proxy.oneHost .calm onePeer = .ok node) ∧
    NeverBootstraps Proxy.oneHost onePeer
  := by
  use by decide +kernel, exists_main_calm (by decide +kernel)
  apply never_bootstraps rfl (by decide)
  rintro ⟨-, ⟨-, hannounced⟩ | ⟨-, henough⟩⟩
  · revert hannounced
    decide +kernel
  · revert henough
    decide +kernel

end Config

end VmProxyAuth
