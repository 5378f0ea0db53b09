import VmProxyAuth.Cluster.Bootstrap
import VmProxyAuth.Lib.Machine

/-!
# The formation of a cluster

Any number of nodes run discovery, each in its own time.  A node that bootstraps does so with
itself alone, so that the initial configurations agree exactly if no node bootstraps after a
different one has (`initial_configurations_agree_iff`).
-/

namespace VmProxyAuth

namespace Cluster

/-- A step of a node that waits for its bootstrap: a round of discovery, or a call of
`TryDelayedBootstrap` with any peers. -/
inductive BootstrapAction where
  | runDiscovery (r : DiscoveryRound)
  | tryDelayedBootstrap (discoveredPeers : List String) (err : Option GoError)

namespace RaftStorage

/-- One step of a node. -/
def step (rs : RaftStorage) : BootstrapAction → RaftStorage
  | .runDiscovery r => (r.runDiscovery rs).1
  | .tryDelayedBootstrap discoveredPeers err => (rs.tryDelayedBootstrap discoveredPeers err).1

/-- A delayed bootstrap is due: it was deferred, there are enough peers, and the Raft library
makes no error. -/
def due (rs : RaftStorage) (discoveredPeers : List String) (err : Option GoError) : Bool :=
  rs.bootstrapDeferred &&
    decide (rs.config.bootstrapExpected ≤ (discoveredPeers.length : ℤ) + 1) && err.isNone

/-- A node bootstraps in a step.  In a round of discovery there are peers left to join, and
they are joined. -/
def bootstraps (rs : RaftStorage) : BootstrapAction → Bool
  | .runDiscovery r =>
    r.hasPeerJoiner && !(r.filterPeers r.allPeers).isEmpty && r.joinErr.isNone &&
      r.hasRaftManager && rs.due (r.filterPeers r.allPeers) r.raftErr
  | .tryDelayedBootstrap discoveredPeers err => rs.due discoveredPeers err

/-- The configuration of the node alone. -/
def alone (rs : RaftStorage) : Configuration := Servers.Configuration.single rs.self

theorem config_tryDelayedBootstrap (rs : RaftStorage) (peers : List String)
    (err : Option GoError) :
  (rs.tryDelayedBootstrap peers err).1.config = rs.config
  := by
  rw [tryDelayedBootstrap]
  split_ifs
  · rfl
  · rfl
  · cases err <;> rfl

theorem bootstrapped_tryDelayedBootstrap (rs : RaftStorage) (peers : List String)
    (err : Option GoError) :
  (rs.tryDelayedBootstrap peers err).1.bootstrapped
    = if rs.due peers err then some rs.alone else rs.bootstrapped
  := by
  rw [tryDelayedBootstrap, due]
  cases hdeferred : rs.bootstrapDeferred with
  | false => rfl
  | true =>
    by_cases henough : (peers.length : ℤ) + 1 < rs.config.bootstrapExpected
    · simp [henough]
    · rw [not_lt] at henough
      simp only [Bool.not_true, Bool.false_eq_true, if_false, not_lt.mpr henough,
        decide_eq_true henough, Bool.and_self, Bool.true_and]
      cases err <;> rfl

theorem config_step (rs : RaftStorage) (a : BootstrapAction) :
  (rs.step a).config = rs.config
  := by
  cases a with
  | tryDelayedBootstrap peers err => apply config_tryDelayedBootstrap
  | runDiscovery r =>
    rw [step, DiscoveryRound.runDiscovery]
    split_ifs
    all_goals first | rfl | apply config_tryDelayedBootstrap

@[simp]
theorem self_step (rs : RaftStorage) (a : BootstrapAction) :
  (rs.step a).self = rs.self
  := by
  rw [self, self, config_step]

/-- A node that bootstraps in a step does so alone; otherwise nothing changes. -/
theorem bootstrapped_step (rs : RaftStorage) (a : BootstrapAction) :
  (rs.step a).bootstrapped = if rs.bootstraps a then some rs.alone else rs.bootstrapped
  := by
  cases a with
  | tryDelayedBootstrap peers err => apply bootstrapped_tryDelayedBootstrap
  | runDiscovery r =>
    rw [step, DiscoveryRound.runDiscovery, bootstraps]
    by_cases hpeers : r.filterPeers r.allPeers = []
    · simp [hpeers]
    · have hall : r.allPeers ≠ [] := by
        intro h
        apply hpeers
        rw [h]
        rfl
      cases hjoiner : r.hasPeerJoiner with
      | false => simp
      | true =>
        cases hjoin : r.joinErr with
        | some e => simp [hpeers, hall]
        | none =>
          cases hmanager : r.hasRaftManager with
          | false => simp [hpeers, hall]
          | true => simp [hpeers, hall, bootstrapped_tryDelayedBootstrap]

end RaftStorage

/-! ### The nodes together -/

namespace Formation

/-- A node without existing state, after its start. -/
def start (nodeID : String) (config : RaftConfig) : RaftStorage :=
  (RaftStorage.bootstrapCluster ⟨config.storageConfig nodeID, false, none⟩ (.ok false) none).1

/-- A node with a valid configuration that expects servers has not bootstrapped at its
start. -/
theorem bootstrapped_start (nodeID : String) {config : RaftConfig}
    (hvalid : config.validate = .ok ()) (hexpected : 0 < config.bootstrapExpected) :
  (start nodeID config).bootstrapped = none
  := by
  have hpeers := RaftConfig.peers_eq_nil hvalid hexpected
  rw [start, RaftStorage.bootstrapCluster]
  simp [RaftConfig.storageConfig, hpeers, hexpected, RaftStorage.maybeBootstrap]

variable {ι : Type}

/-- All nodes that have bootstrapped have the same servers in their initial configuration. -/
def Agree (s : ι → RaftStorage) : Prop :=
  ∀ n m c d, (s n).bootstrapped = some c → (s m).bootstrapped = some d →
    ∀ server, server ∈ c.servers ↔ server ∈ d.servers

/-- A node bootstraps only while no node with another identifier or address has. -/
def BootstrapsFirst (s : ι → RaftStorage) (a : ι × BootstrapAction) : Prop :=
  (s a.1).bootstraps a.2 = true → ∀ m, (s m).bootstrapped.isSome = true → (s m).self = (s a.1).self

instance [Fintype ι] (s : ι → RaftStorage) (a : ι × BootstrapAction) :
    Decidable (BootstrapsFirst s a) :=
  inferInstanceAs (Decidable (_ → _))

/-- The nodes that have bootstrapped have done so alone. -/
def BootstrappedAlone (s : ι → RaftStorage) : Prop :=
  ∀ n c, (s n).bootstrapped = some c → c = (s n).alone

/-- Nodes that have bootstrapped alone agree exactly if they are the same server. -/
theorem BootstrappedAlone.agree_iff {s : ι → RaftStorage} (hs : BootstrappedAlone s) :
  Agree s ↔ ∀ n m, (s n).bootstrapped.isSome = true → (s m).bootstrapped.isSome = true →
    (s n).self = (s m).self
  := by
  constructor
  · intro h n m hn hm
    obtain ⟨c, hc⟩ := Option.isSome_iff_exists.mp hn
    obtain ⟨d, hd⟩ := Option.isSome_iff_exists.mp hm
    have hself : (s n).self ∈ c.servers := by
      rw [hs n c hc]
      apply List.mem_singleton_self
    have hmem := (h n m c d hc hd (s n).self).mp hself
    rw [hs m d hd] at hmem
    exact List.mem_singleton.mp hmem
  · intro h n m c d hc hd server
    have hn := Option.isSome_iff_exists.mpr ⟨c, hc⟩
    have hm := Option.isSome_iff_exists.mpr ⟨d, hd⟩
    rw [hs n c hc, hs m d hd, RaftStorage.alone, RaftStorage.alone, h n m hn hm]

variable [DecidableEq ι]

/-- The machine of the nodes: one of them takes a step. -/
def machine : Machine (ι → RaftStorage) (ι × BootstrapAction) :=
  ⟨fun s a => some (Function.update s a.1 ((s a.1).step a.2))⟩

theorem bootstrappedAlone_step {s t : ι → RaftStorage} {a : ι × BootstrapAction}
    (hs : BootstrappedAlone s) (h : machine.step s a = some t) :
  BootstrappedAlone t
  := by
  cases h
  intro n c hc
  by_cases hn : n = a.1
  · subst hn
    rw [Function.update_self] at hc ⊢
    rw [RaftStorage.alone, RaftStorage.self_step]
    rw [RaftStorage.bootstrapped_step] at hc
    split_ifs at hc
    · exact (Option.some.inj hc).symm
    · exact hs a.1 c hc
  · rw [Function.update_of_ne hn] at hc ⊢
    exact hs n c hc

/-- A step does not change which server a node is. -/
theorem self_update (s : ι → RaftStorage) (a : ι × BootstrapAction) (n : ι) :
  (Function.update s a.1 ((s a.1).step a.2) n).self = (s n).self
  := by
  by_cases hn : n = a.1
  · subst hn
    rw [Function.update_self, RaftStorage.self_step]
  · rw [Function.update_of_ne hn]

/-- After a step the nodes that have bootstrapped are those before, and the one that
bootstraps. -/
theorem isSome_bootstrapped_update (s : ι → RaftStorage) (a : ι × BootstrapAction) (n : ι) :
  (Function.update s a.1 ((s a.1).step a.2) n).bootstrapped.isSome = true ↔
    (s n).bootstrapped.isSome = true ∨ (n = a.1 ∧ (s a.1).bootstraps a.2 = true)
  := by
  by_cases hn : n = a.1
  · subst hn
    rw [Function.update_self, RaftStorage.bootstrapped_step]
    split_ifs with hboots
    · simp [hboots]
    · simp [hboots]
  · rw [Function.update_of_ne hn]
    simp [hn]

/-- A step of nodes that agree keeps them in agreement exactly if the node that takes it does
not bootstrap after a different one. -/
theorem agree_step_iff {s t : ι → RaftStorage} {a : ι × BootstrapAction}
    (hs : BootstrappedAlone s) (hagree : Agree s) (h : machine.step s a = some t) :
  Agree t ↔ BootstrapsFirst s a
  := by
  have ht := bootstrappedAlone_step hs h
  cases h
  rw [ht.agree_iff]
  simp only [self_update, isSome_bootstrapped_update]
  rw [hs.agree_iff] at hagree
  constructor
  · intro hall hboots m hm
    exact hall m a.1 (Or.inl hm) (Or.inr ⟨rfl, hboots⟩)
  · rintro hfirst n m (hn | ⟨rfl, hboots⟩) (hm | ⟨rfl, hboots'⟩)
    · exact hagree n m hn hm
    · exact hfirst hboots' n hn
    · exact (hfirst hboots m hm).symm
    · rfl

/-- The initial configurations of fresh nodes that expect the same number of servers, more than
one, agree in every state of a run exactly if no node bootstraps after a different one has. -/
theorem initial_configurations_agree_iff (ids : ι → String) (configs : ι → RaftConfig)
    (hvalid : ∀ n, (configs n).validate = .ok ()) (expected : ℤ) (hexpected : 1 < expected)
    (hconfigs : ∀ n, (configs n).bootstrapExpected = expected)
    (actions : List (ι × BootstrapAction)) :
  machine.Always Agree (fun n => start (ids n) (configs n)) actions ↔
    machine.Meets BootstrapsFirst (fun n => start (ids n) (configs n)) actions
  := by
  have hnone : ∀ n, (start (ids n) (configs n)).bootstrapped = none := by
    intro n
    apply bootstrapped_start (ids n) (hvalid n)
    rw [hconfigs n]
    omega
  apply Machine.always_iff_meets (J := BootstrappedAlone) (fun _ _ _ => bootstrappedAlone_step)
    (fun _ _ _ => agree_step_iff)
  · intro n c hc
    rw [hnone n] at hc
    cases hc
  · intro n m c d hc
    rw [hnone n] at hc
    cases hc

/-! ### Two nodes that find each other -/

/-- The identifiers of two nodes. -/
def twoIds : Bool → String
  | false => "n1"
  | true => "n2"

/-- The configurations of two nodes that expect two servers. -/
def twoConfigs : Bool → RaftConfig
  | false => ⟨"10.0.0.1:9000", "/data/raft", 2, []⟩
  | true => ⟨"10.0.0.2:9000", "/data/raft", 2, []⟩

/-- A round of discovery that finds and joins one peer. -/
def findsPeer (peer : String) : DiscoveryRound := ⟨true, true, some [], [.ok [peer]], none, none⟩

/-- Each node finds the other, and each bootstraps alone. -/
theorem two_clusters_formed :
  ∃ t, machine.run (fun n => start (twoIds n) (twoConfigs n))
      [(false, .runDiscovery (findsPeer "10.0.0.2:7946")),
        (true, .runDiscovery (findsPeer "10.0.0.1:7946"))] = some t ∧
    ((t false).bootstrapped.map (fun c => c.servers) = some [⟨"n1", "10.0.0.1:9000"⟩]) ∧
    ((t true).bootstrapped.map (fun c => c.servers) = some [⟨"n2", "10.0.0.2:9000"⟩]) ∧
    ¬ Agree t
  := by
  refine ⟨_, rfl, rfl, rfl, ?_⟩
  intro h
  have hmem := (h false true _ _ rfl rfl ⟨"n1", "10.0.0.1:9000"⟩).mp (List.mem_singleton_self _)
  exact absurd (List.mem_singleton.mp hmem) (by decide)

/-- If only one of them finds the other, they agree. -/
theorem one_bootstrap_agrees :
  machine.Always Agree (fun n => start (twoIds n) (twoConfigs n))
    [(false, .runDiscovery (findsPeer "10.0.0.2:7946"))]
  := (initial_configurations_agree_iff twoIds twoConfigs (by intro n; cases n <;> rfl) 2
      (by decide) (by decide) _).mpr (by decide +kernel)

end Formation

end Cluster

end VmProxyAuth
