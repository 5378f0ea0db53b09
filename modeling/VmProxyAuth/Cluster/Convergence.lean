import VmProxyAuth.Cluster.Delegate
import VmProxyAuth.Lib.Machine

/-!
# Convergence of the membership

The delegate of one node is notified of peers that join and leave while the node becomes leader
and ceases to be, every change of the configuration succeeds, and no cluster of two is
recovered.  After `ProcessPendingPeers` has run as leader, the configuration should have the
nodes whose last event was a join, with the address of that join.  Additions and removals are
kept in two collections that are replayed one after the other, so this depends on what is kept
of a node when they are replayed (`converges_iff`).
-/

namespace VmProxyAuth

namespace Cluster

namespace Convergence

/-- The last event of a node: it joined with an address, or left.  A join is heard unless it is
that of the node itself or has no address. -/
inductive Event where
  | joined (raftAddress : String) (heard : Bool)
  | left
  deriving DecidableEq, Repr

/-- The node, the last event of every node notified of so far, and whether what was kept has
just been processed as leader. -/
structure State where
  member : Member
  last : GoMap String Event
  processed : Bool

/-- An event, a change of leadership, or a call of `ProcessPendingPeers` that visits the
removals in some order. -/
inductive Action where
  | join (name nodeID raftAddress : String)
  | leave (name nodeID raftAddress : String)
  | setLeader (leader : Bool)
  | process (order : List String)
  deriving DecidableEq, Repr

/-- Every change of the configuration succeeds. -/
def succeeding : RaftAnswers where
  getConfiguration := none
  addVoter _ := ⟨true, none⟩
  removeServer _ := ⟨true, none⟩

/-- A node of the member list with the role of a peer. -/
def peerNode (name nodeID raftAddress : String) : Node :=
  ⟨name, .metadata ⟨nodeID, raftAddress, peerRole⟩⟩

/-- Whether a join is acted upon. -/
def heard (d : RaftDelegate) (name raftAddress : String) : Bool :=
  !decide (d.localNodeName ≠ "" ∧ d.localNodeName = name) && decide (raftAddress ≠ "")

/-- The configuration after removing servers one after the other, if all can be removed. -/
def removeAll (c : Configuration) : List String → Option Configuration
  | [] => some c
  | nodeID :: order => (c.removeServer nodeID).bind (fun c' => removeAll c' order)

/-- Whether a leave takes no emergency recovery and its removal succeeds. -/
def leavable (n : Member) (nodeID : String) : Bool :=
  (handleEmergencyRecovery n nodeID succeeding).isNone &&
    (!n.raft.leader || (n.raft.configuration.removeServer nodeID).isSome)

/-- Whether the removals kept are visited in the given order and all succeed. -/
def processable (n : Member) (order : List String) : Bool :=
  decide (order.Perm n.delegate.pendingRemovals.keys) &&
    (removeAll (addPending n.raft succeeding n.delegate.pendingPeers).configuration order).isSome

/-- One event. -/
def step (s : State) : Action → Option State
  | .join name nodeID raftAddress =>
    some { member := notifyJoin s.member (peerNode name nodeID raftAddress) succeeding
           last := s.last.insert nodeID
             (.joined raftAddress (heard s.member.delegate name raftAddress))
           processed := false }
  | .leave name nodeID raftAddress =>
    if leavable s.member nodeID then
      some { member := notifyLeave s.member (peerNode name nodeID raftAddress) succeeding
             last := s.last.insert nodeID .left
             processed := false }
    else none
  | .setLeader leader =>
    some { s with
           member := { s.member with raft := { s.member.raft with leader := leader } }
           processed := false }
  | .process order =>
    if s.member.raft.leader then
      if processable s.member order then
        some { s with
               member := processPendingPeers s.member order succeeding
               processed := true }
      else none
    else
      some { s with
             member := processPendingPeers s.member order succeeding
             processed := false }

/-- The machine of one delegate. -/
def machine : Machine State Action := ⟨step⟩

/-- The address a node has in the configuration. -/
def State.address (s : State) (nodeID : String) : Option String :=
  s.member.raft.configuration.address nodeID

/-- The address a node should have after its last event. -/
def Event.address : Event → Option String
  | .joined raftAddress _ => some raftAddress
  | .left => none

/-- Every node has the address its last event gives it; a node that has left has none. -/
def Converged (s : State) : Prop :=
  ∀ e ∈ s.last.items, s.address e.1 = e.2.address

/-- What was just processed as leader has converged. -/
def Converges (s : State) : Prop := s.processed = true → Converged s

/-- What is kept of a node, replayed, gives what its last event says: of a node that joined, no
removal is kept, a peer is kept with the address of that join only, and one is kept if the join
was not heard and the configuration does not have it; of a node that left, a removal is kept or
no peer is. -/
def Replays (s : State) (nodeID : String) : Event → Prop
  | .joined raftAddress heard =>
    nodeID ∉ s.member.delegate.pendingRemovals ∧
    (∀ p ∈ s.member.delegate.pendingPeers, p.nodeID = nodeID → p.raftAddress = raftAddress) ∧
    (heard = true ∨ nodeID ∈ s.member.delegate.pendingPeers.map PendingPeer.nodeID ∨
      s.address nodeID = some raftAddress)
  | .left =>
    nodeID ∈ s.member.delegate.pendingRemovals ∨
      nodeID ∉ s.member.delegate.pendingPeers.map PendingPeer.nodeID

instance (s : State) (nodeID : String) : ∀ e, Decidable (Replays s nodeID e)
  | .joined _ _ => inferInstanceAs (Decidable (_ ∧ _ ∧ _))
  | .left => inferInstanceAs (Decidable (_ ∨ _))

/-- Whenever what is kept is processed as leader, what is kept of every node agrees with its
last event. -/
def ReplaysAll (s : State) : Action → Prop
  | .process _ => s.member.raft.leader = true → ∀ e ∈ s.last.items, Replays s e.1 e.2
  | _ => True

instance (s : State) : ∀ a, Decidable (ReplaysAll s a)
  | .process _ => inferInstanceAs (Decidable (_ → _))
  | .join _ _ _ => isTrue trivial
  | .leave _ _ _ => isTrue trivial
  | .setLeader _ => isTrue trivial

/-! ### What the events do -/

theorem notifyJoin_peerNode (n : Member) (name nodeID raftAddress : String) :
  notifyJoin n (peerNode name nodeID raftAddress) succeeding
    = if heard n.delegate name raftAddress then addRaftPeer n nodeID raftAddress succeeding else n
  := by
  rw [notifyJoin, heard, peerNode]
  dsimp only
  by_cases hself : n.delegate.localNodeName ≠ "" ∧ n.delegate.localNodeName = name
  · rw [if_pos hself, decide_eq_true hself, if_neg (by simp)]
  · rw [if_neg hself, decide_eq_false hself]
    by_cases haddress : raftAddress = ""
    · simp [haddress, unmarshalNodeMetadata]
    · simp [haddress, unmarshalNodeMetadata]

/-- As leader a peer is added. -/
theorem addRaftPeer_of_leader {n : Member} (hmgr : n.delegate.hasRaftMgr = true)
    (hleader : n.raft.leader = true) (nodeID raftAddress : String) :
  addRaftPeer n nodeID raftAddress succeeding
    = { n with raft := { n.raft with
          configuration := n.raft.configuration.addVoter ⟨nodeID, raftAddress⟩ } }
  := by
  simp [addRaftPeer, hmgr, hleader, RaftState.addVoter, succeeding]

/-- Otherwise it is kept, unless one is kept of the node already. -/
theorem addRaftPeer_of_not_leader {n : Member} (hmgr : n.delegate.hasRaftMgr = true)
    (hleader : n.raft.leader = false) (nodeID raftAddress : String) :
  addRaftPeer n nodeID raftAddress succeeding
    = { n with delegate := { n.delegate with
          pendingPeers :=
            if nodeID ∈ n.delegate.pendingPeers.map PendingPeer.nodeID then
              n.delegate.pendingPeers
            else n.delegate.pendingPeers ++ [⟨nodeID, raftAddress⟩] } }
  := by
  by_cases hkept : nodeID ∈ n.delegate.pendingPeers.map PendingPeer.nodeID
  · have hany : n.delegate.pendingPeers.any (fun p => p.nodeID == nodeID) = true := by
      simpa using hkept
    rw [addRaftPeer, hmgr, hleader, hany, if_pos hkept]
    rfl
  · have hany : n.delegate.pendingPeers.any (fun p => p.nodeID == nodeID) = false := by
      simpa using hkept
    rw [addRaftPeer, hmgr, hleader, hany, if_neg hkept]
    rfl

/-- As leader a server that left is removed, otherwise its removal is kept. -/
theorem notifyLeave_peerNode {n : Member} (hmgr : n.delegate.hasRaftMgr = true)
    (hrunning : n.delegate.shutdownFlag = false) {nodeID : String} (h : leavable n nodeID = true)
    (name raftAddress : String) :
  (∃ c, n.raft.leader = true ∧ n.raft.configuration.removeServer nodeID = some c ∧
    notifyLeave n (peerNode name nodeID raftAddress) succeeding
      = { n with raft := { n.raft with configuration := c } }) ∨
  notifyLeave n (peerNode name nodeID raftAddress) succeeding
    = { n with delegate := { n.delegate with
          pendingRemovals := n.delegate.pendingRemovals.insert nodeID true } }
  := by
  rw [leavable, Bool.and_eq_true, Option.isNone_iff_eq_none] at h
  obtain ⟨hemergency, hremovable⟩ := h
  have hleave : notifyLeave n (peerNode name nodeID raftAddress) succeeding
      = (handleNonLeaderRemoval n nodeID).getD (performPeerRemoval n nodeID succeeding) := by
    simp [notifyLeave, hrunning, peerNode, unmarshalNodeMetadata, removeRaftPeer, hmgr, hemergency]
  rw [hleave]
  cases hleader : n.raft.leader with
  | true =>
    rw [hleader, Bool.not_true, Bool.false_or, Option.isSome_iff_exists] at hremovable
    obtain ⟨c, hc⟩ := hremovable
    left
    use c, rfl, hc
    simp [handleNonLeaderRemoval, performPeerRemoval, hleader, RaftState.removeServer, succeeding,
      hc]
  | false =>
    right
    simp [handleNonLeaderRemoval, hleader]

/-! ### What processing does -/

theorem addPending_succeeding {r : RaftState} (hleader : r.leader = true)
    (peers : List PendingPeer) :
  addPending r succeeding peers
    = { r with configuration :=
          peers.foldl (fun c p => c.addVoter ⟨p.nodeID, p.raftAddress⟩) r.configuration }
  := by
  induction peers generalizing r with
  | nil => rfl
  | cons p peers ih =>
    have hadd : (r.addVoter p.nodeID p.raftAddress (succeeding.addVoter p.nodeID)).1
        = { r with configuration := r.configuration.addVoter ⟨p.nodeID, p.raftAddress⟩ } := by
      simp [RaftState.addVoter, hleader, succeeding]
    rw [addPending, List.foldl_cons, ← addPending, hadd, ih, List.foldl_cons]
    apply hleader

theorem removePending_succeeding {r : RaftState} (hleader : r.leader = true) {order : List String}
    {c : Configuration} (h : removeAll r.configuration order = some c) :
  removePending r succeeding order = { r with configuration := c }
  := by
  induction order generalizing r with
  | nil =>
    obtain rfl := Option.some.inj h
    rfl
  | cons nodeID order ih =>
    obtain ⟨c', hc', hrest⟩ := Option.bind_eq_some_iff.mp h
    have hremove : (r.removeServer nodeID (succeeding.removeServer nodeID)).1
        = { r with configuration := c' } := by
      simp [RaftState.removeServer, hleader, succeeding, hc']
    rw [removePending, List.foldl_cons, ← removePending, hremove, ih]
    · apply hleader
    · apply hrest

theorem address_removeAll {c c' : Configuration} {order : List String}
    (h : removeAll c order = some c') (nodeID : String) :
  c'.address nodeID = if nodeID ∈ order then none else c.address nodeID
  := by
  induction order generalizing c with
  | nil =>
    obtain rfl := Option.some.inj h
    simp
  | cons first order ih =>
    obtain ⟨c₁, hc₁, hrest⟩ := Option.bind_eq_some_iff.mp h
    rw [ih hrest, Servers.Configuration.address_of_removeServer hc₁]
    by_cases hfirst : nodeID = first
    · simp [hfirst]
    · simp [hfirst]

/-- The address kept for a node. -/
def kept (peers : List PendingPeer) (nodeID : String) : Option String :=
  (peers.find? (fun p => decide (p.nodeID = nodeID))).map PendingPeer.raftAddress

theorem kept_cons (p : PendingPeer) (peers : List PendingPeer) (nodeID : String) :
  kept (p :: peers) nodeID = if nodeID = p.nodeID then some p.raftAddress else kept peers nodeID
  := by
  by_cases h : nodeID = p.nodeID
  · simp [kept, h]
  · simp [kept, h, Ne.symm h]

theorem kept_eq_none_iff {peers : List PendingPeer} {nodeID : String} :
  kept peers nodeID = none ↔ nodeID ∉ peers.map PendingPeer.nodeID
  := by
  simp [kept]

/-- With one peer kept of each node, each is added with the address kept for it. -/
theorem address_foldl_addVoter {peers : List PendingPeer}
    (hnodup : (peers.map PendingPeer.nodeID).Nodup) (c : Configuration) (nodeID : String) :
  (peers.foldl (fun c p => c.addVoter ⟨p.nodeID, p.raftAddress⟩) c).address nodeID
    = (kept peers nodeID).or (c.address nodeID)
  := by
  induction peers generalizing c with
  | nil => rfl
  | cons p peers ih =>
    rw [List.map_cons, List.nodup_cons] at hnodup
    rw [List.foldl_cons, ih hnodup.2, Servers.Configuration.address_addVoter, kept_cons]
    by_cases h : nodeID = p.nodeID
    · subst h
      rw [kept_eq_none_iff.mpr hnodup.1]
      simp
    · simp [h]

/-- Processing as leader removes the nodes whose removals are kept, and gives the others the
addresses kept for them. -/
theorem processPendingPeers_spec {n : Member} (hmgr : n.delegate.hasRaftMgr = true)
    (hleader : n.raft.leader = true)
    (hnodup : (n.delegate.pendingPeers.map PendingPeer.nodeID).Nodup) {order : List String}
    (h : processable n order = true) :
  ∃ c, processPendingPeers n order succeeding
      = { delegate := { n.delegate with pendingPeers := [], pendingRemovals := ∅ }
          raft := { n.raft with configuration := c } } ∧
    ∀ nodeID, c.address nodeID
      = if nodeID ∈ n.delegate.pendingRemovals then none
        else (kept n.delegate.pendingPeers nodeID).or (n.raft.configuration.address nodeID)
  := by
  rw [processable, Bool.and_eq_true, decide_eq_true_eq, Option.isSome_iff_exists] at h
  obtain ⟨hperm, c, hc⟩ := h
  use c
  constructor
  · have hleader' : (addPending n.raft succeeding n.delegate.pendingPeers).leader = true := by
      rw [addPending_succeeding hleader]
      apply hleader
    rw [processPendingPeers, hmgr, hleader, removePending_succeeding hleader' hc,
      addPending_succeeding hleader]
    rfl
  · intro nodeID
    rw [addPending_succeeding hleader] at hc
    have hmem : nodeID ∈ order ↔ nodeID ∈ n.delegate.pendingRemovals := hperm.mem_iff
    rw [address_removeAll hc, address_foldl_addVoter hnodup]
    simp only [hmem]

/-! ### The invariant -/

/-- Whether the last event of a node was acted upon. -/
def Event.acted : Event → Bool
  | .joined _ heard => heard
  | .left => true

/-- Something is kept of a node, or it has the address its last event gives it if that was
acted upon. -/
def Known (s : State) (nodeID : String) (e : Event) : Prop :=
  nodeID ∈ s.member.delegate.pendingRemovals ∨
    nodeID ∈ s.member.delegate.pendingPeers.map PendingPeer.nodeID ∨
    (e.acted = true → s.address nodeID = e.address)

/-- The delegate runs with a Raft manager, keeps at most one peer of each node, and knows what
became of every node. -/
structure Tracked (s : State) : Prop where
  hasRaftMgr : s.member.delegate.hasRaftMgr = true
  running : s.member.delegate.shutdownFlag = false
  nodup : (s.member.delegate.pendingPeers.map PendingPeer.nodeID).Nodup
  known : ∀ e ∈ s.last.items, Known s e.1 e.2

/-- What is kept of the other nodes, and their addresses, are as before. -/
structure SameBeside (s t : State) (nodeID : String) : Prop where
  removals : ∀ j ≠ nodeID, j ∈ s.member.delegate.pendingRemovals →
    j ∈ t.member.delegate.pendingRemovals
  peers : ∀ j ≠ nodeID, j ∈ s.member.delegate.pendingPeers.map PendingPeer.nodeID →
    j ∈ t.member.delegate.pendingPeers.map PendingPeer.nodeID
  address : ∀ j ≠ nodeID, t.address j = s.address j

/-- An event keeps every node known if it does so for its own node. -/
theorem known_event {s t : State} {nodeID : String} {e : Event}
    (hs : ∀ e ∈ s.last.items, Known s e.1 e.2) (hlast : t.last = s.last.insert nodeID e)
    (hself : Known t nodeID e) (hbeside : SameBeside s t nodeID) :
  ∀ e ∈ t.last.items, Known t e.1 e.2
  := by
  rintro ⟨j, e'⟩ he'
  rw [GoMap.mem_items, hlast, GoMap.lookup_insert_eq_ite] at he'
  by_cases hj : j = nodeID
  · rw [if_pos hj] at he'
    cases he'
    rw [hj]
    apply hself
  · rw [if_neg hj] at he'
    obtain hremoval | hpeer | haddress := hs (j, e') (GoMap.mem_items.mpr he')
    · apply Or.inl (hbeside.removals j hj hremoval)
    · apply Or.inr (Or.inl (hbeside.peers j hj hpeer))
    · right
      right
      rw [hbeside.address j hj]
      apply haddress

theorem tracked_join {s t : State} (h : Tracked s) {name nodeID raftAddress : String}
    (hstep : step s (.join name nodeID raftAddress) = some t) :
  Tracked t
  := by
  obtain rfl := Option.some.inj hstep
  cases hheard : heard s.member.delegate name raftAddress with
  | false =>
    have hmember :
        notifyJoin s.member (peerNode name nodeID raftAddress) succeeding = s.member := by
      rw [notifyJoin_peerNode, hheard]
      rfl
    rw [hmember]
    refine ⟨h.hasRaftMgr, h.running, h.nodup, known_event h.known rfl ?_ ?_⟩
    · right
      right
      rintro ⟨⟩
    · exact ⟨fun _ _ => id, fun _ _ => id, fun _ _ => rfl⟩
  | true =>
    have hmember : notifyJoin s.member (peerNode name nodeID raftAddress) succeeding
        = addRaftPeer s.member nodeID raftAddress succeeding := by
      rw [notifyJoin_peerNode, hheard]
      rfl
    rw [hmember]
    cases hleader : s.member.raft.leader with
    | true =>
      rw [addRaftPeer_of_leader h.hasRaftMgr hleader]
      refine ⟨h.hasRaftMgr, h.running, h.nodup, known_event h.known rfl ?_ ?_⟩
      · right
        right
        intro _
        rw [State.address, Servers.Configuration.address_addVoter, if_pos rfl]
        rfl
      · refine ⟨fun _ _ => id, fun _ _ => id, ?_⟩
        intro j hj
        rw [State.address, Servers.Configuration.address_addVoter, if_neg hj]
        rfl
    | false =>
      rw [addRaftPeer_of_not_leader h.hasRaftMgr hleader]
      by_cases hkept : nodeID ∈ s.member.delegate.pendingPeers.map PendingPeer.nodeID
      · rw [if_pos hkept]
        refine ⟨h.hasRaftMgr, h.running, h.nodup, known_event h.known rfl ?_ ?_⟩
        · apply Or.inr (Or.inl hkept)
        · exact ⟨fun _ _ => id, fun _ _ => id, fun _ _ => rfl⟩
      · rw [if_neg hkept]
        refine ⟨h.hasRaftMgr, h.running, ?_, known_event h.known rfl ?_ ?_⟩
        · rw [List.map_append, List.map_singleton, ← List.concat_eq_append]
          apply h.nodup.concat hkept
        · right
          left
          simp
        · refine ⟨fun _ _ => id, ?_, fun _ _ => rfl⟩
          intro j _ hj
          rw [List.map_append]
          apply List.mem_append_left _ hj

theorem tracked_leave {s t : State} (h : Tracked s) {name nodeID raftAddress : String}
    (hstep : step s (.leave name nodeID raftAddress) = some t) :
  Tracked t
  := by
  obtain ⟨hleavable, ⟨⟩⟩ := Option.ite_none_right_eq_some.mp hstep
  obtain ⟨c, -, hremoved, hmember⟩ | hmember :=
    notifyLeave_peerNode h.hasRaftMgr h.running hleavable name raftAddress
  · rw [hmember]
    refine ⟨h.hasRaftMgr, h.running, h.nodup, known_event h.known rfl ?_ ?_⟩
    · right
      right
      intro _
      rw [State.address, Servers.Configuration.address_of_removeServer hremoved, if_pos rfl]
      rfl
    · refine ⟨fun _ _ => id, fun _ _ => id, ?_⟩
      intro j hj
      rw [State.address, Servers.Configuration.address_of_removeServer hremoved, if_neg hj]
      rfl
  · rw [hmember]
    refine ⟨h.hasRaftMgr, h.running, h.nodup, known_event h.known rfl ?_ ?_⟩
    · left
      apply (AList.mem_insert _).mpr (Or.inl rfl)
    · refine ⟨?_, fun _ _ => id, fun _ _ => rfl⟩
      intro j _ hj
      apply (AList.mem_insert _).mpr (Or.inr hj)

/-! ### Processing -/

/-- Every peer kept of a node has the address kept for it. -/
theorem forall_kept_iff {peers : List PendingPeer}
    (hnodup : (peers.map PendingPeer.nodeID).Nodup) {nodeID raftAddress : String}
    (h : kept peers nodeID = some raftAddress) (expected : String) :
  (∀ p ∈ peers, p.nodeID = nodeID → p.raftAddress = expected) ↔ raftAddress = expected
  := by
  obtain ⟨p, hfound, rfl⟩ := Option.map_eq_some_iff.mp h
  have hid : p.nodeID = nodeID := by simpa using List.find?_some hfound
  have hmem := List.mem_of_find?_eq_some hfound
  constructor
  · intro hall
    apply hall p hmem hid
  · intro hexpected q hq hqid
    rw [List.inj_on_of_nodup_map hnodup hq hmem (hqid.trans hid.symm)]
    apply hexpected

/-- The address a node has after processing is the one its last event gives it exactly if what
is kept of it says so. -/
theorem replayed_iff {s : State} (h : Tracked s) {nodeID : String} {e : Event}
    (he : (nodeID, e) ∈ s.last.items) :
  (if nodeID ∈ s.member.delegate.pendingRemovals then none
      else (kept s.member.delegate.pendingPeers nodeID).or (s.address nodeID)) = e.address
    ↔ Replays s nodeID e
  := by
  by_cases hremoval : nodeID ∈ s.member.delegate.pendingRemovals
  · rw [if_pos hremoval]
    cases e with
    | joined raftAddress heard =>
      apply iff_of_false
      · rintro ⟨⟩
      · intro hreplays
        apply hreplays.1 hremoval
    | left => apply iff_of_true rfl (Or.inl hremoval)
  · rw [if_neg hremoval]
    rcases hkept : kept s.member.delegate.pendingPeers nodeID with _ | kept
    · have hpeer := kept_eq_none_iff.mp hkept
      have hknown : e.acted = true → s.address nodeID = e.address := by
        obtain hno | hno | hknown := h.known _ he
        · apply absurd hno hremoval
        · apply absurd hno hpeer
        · apply hknown
      rw [Option.none_or]
      cases e with
      | joined raftAddress heard =>
        constructor
        · intro haddress
          refine ⟨hremoval, ?_, Or.inr (Or.inr haddress)⟩
          intro p hp hid
          apply absurd (List.mem_map.mpr ⟨p, hp, hid⟩) hpeer
        · rintro ⟨-, -, hheard | hno | haddress⟩
          · apply hknown hheard
          · apply absurd hno hpeer
          · apply haddress
      | left => apply iff_of_true (hknown rfl) (Or.inr hpeer)
    · have hpeer : nodeID ∈ s.member.delegate.pendingPeers.map PendingPeer.nodeID := by
        by_contra hnot
        rw [kept_eq_none_iff.mpr hnot] at hkept
        cases hkept
      rw [Option.some_or]
      cases e with
      | joined raftAddress heard =>
        rw [Replays, forall_kept_iff h.nodup hkept, Event.address, Option.some_inj]
        constructor
        · intro haddress
          exact ⟨hremoval, haddress, Or.inr (Or.inl hpeer)⟩
        · rintro ⟨-, haddress, -⟩
          apply haddress
      | left =>
        apply iff_of_false
        · rintro ⟨⟩
        · rintro (hno | hno)
          · apply hremoval hno
          · apply hno hpeer

/-- Processing as leader keeps the nodes and forgets what was kept. -/
theorem process_spec {s t : State} (h : Tracked s) (hleader : s.member.raft.leader = true)
    {order : List String} (hstep : step s (.process order) = some t) :
  t.last = s.last ∧ t.processed = true ∧ t.member.delegate.hasRaftMgr = true ∧
    t.member.delegate.shutdownFlag = false ∧ t.member.delegate.pendingPeers = [] ∧
    ∀ nodeID, t.address nodeID
      = if nodeID ∈ s.member.delegate.pendingRemovals then none
        else (kept s.member.delegate.pendingPeers nodeID).or (s.address nodeID)
  := by
  rw [step, if_pos hleader] at hstep
  obtain ⟨hprocessable, ⟨⟩⟩ := Option.ite_none_right_eq_some.mp hstep
  obtain ⟨c, hmember, haddress⟩ :=
    processPendingPeers_spec h.hasRaftMgr hleader h.nodup hprocessable
  rw [hmember]
  exact ⟨rfl, rfl, h.hasRaftMgr, h.running, rfl, haddress⟩

/-- Processing as follower does nothing. -/
theorem process_of_not_leader {s t : State} (hleader : s.member.raft.leader = false)
    {order : List String} (hstep : step s (.process order) = some t) :
  t = { s with processed := false }
  := by
  rw [step, hleader] at hstep
  obtain rfl := Option.some.inj hstep
  rw [processPendingPeers, hleader, Bool.not_false, Bool.or_true]
  rfl

theorem tracked_step {s t : State} {a : Action} (h : Tracked s) (hconverges : Converges t)
    (hstep : step s a = some t) :
  Tracked t
  := by
  cases a with
  | join name nodeID raftAddress => apply tracked_join h hstep
  | leave name nodeID raftAddress => apply tracked_leave h hstep
  | setLeader leader =>
    obtain rfl := Option.some.inj hstep
    exact ⟨h.hasRaftMgr, h.running, h.nodup, h.known⟩
  | process order =>
    cases hleader : s.member.raft.leader with
    | true =>
      obtain ⟨-, hprocessed, hmgr, hrunning, hpeers, -⟩ := process_spec h hleader hstep
      refine ⟨hmgr, hrunning, ?_, ?_⟩
      · rw [hpeers]
        apply List.nodup_nil
      · intro e he
        right
        right
        intro _
        apply hconverges hprocessed e he
    | false =>
      rw [process_of_not_leader hleader hstep]
      exact ⟨h.hasRaftMgr, h.running, h.nodup, h.known⟩

/-- Processing converges exactly if what is kept of every node agrees with its last event. -/
theorem converges_step_iff {s t : State} {a : Action} (h : Tracked s)
    (hstep : step s a = some t) :
  Converges t ↔ ReplaysAll s a
  := by
  cases a with
  | join name nodeID raftAddress =>
    obtain rfl := Option.some.inj hstep
    exact iff_of_true (fun hprocessed => nomatch hprocessed) trivial
  | leave name nodeID raftAddress =>
    obtain ⟨-, ⟨⟩⟩ := Option.ite_none_right_eq_some.mp hstep
    exact iff_of_true (fun hprocessed => nomatch hprocessed) trivial
  | setLeader leader =>
    obtain rfl := Option.some.inj hstep
    exact iff_of_true (fun hprocessed => nomatch hprocessed) trivial
  | process order =>
    cases hleader : s.member.raft.leader with
    | true =>
      obtain ⟨hlast, hprocessed, -, -, -, haddress⟩ := process_spec h hleader hstep
      have hiff : Converges t ↔ ∀ e ∈ s.last.items, Replays s e.1 e.2 := by
        rw [Converges, hprocessed, Converged, hlast]
        constructor
        · intro hconverged e he
          rw [← replayed_iff h he, ← haddress]
          apply hconverged rfl e he
        · intro hreplays _ e he
          rw [haddress, replayed_iff h he]
          apply hreplays e he
      rw [hiff, ReplaysAll, hleader]
      simp
    | false =>
      rw [process_of_not_leader hleader hstep]
      apply iff_of_true
      · rintro ⟨⟩
      · intro hleader'
        rw [hleader] at hleader'
        cases hleader'

/-- The state in which no event has been notified of. -/
def State.start (n : Member) : State := ⟨n, ∅, false⟩

/-- A node that runs with a Raft manager and has kept nothing yet. -/
structure Fresh (n : Member) : Prop where
  hasRaftMgr : n.delegate.hasRaftMgr = true
  running : n.delegate.shutdownFlag = false
  peers : n.delegate.pendingPeers = []
  removals : n.delegate.pendingRemovals = ∅

/-- From a node that has kept nothing, the configuration has converged whenever what was kept
has been processed as leader, exactly if what is kept of every node then agrees with its last
event. -/
theorem converges_iff {n : Member} (hfresh : Fresh n) (actions : List Action) :
  machine.Always Converges (.start n) actions ↔ machine.Meets ReplaysAll (.start n) actions
  := by
  apply Machine.always_iff_meets_of_next (J := Tracked)
  · intro s a t hs ht hstep
    apply tracked_step hs ht hstep
  · intro s a t hs _ hstep
    apply converges_step_iff hs hstep
  · refine ⟨hfresh.hasRaftMgr, hfresh.running, ?_, ?_⟩
    · rw [State.start, hfresh.peers]
      apply List.nodup_nil
    · rintro e ⟨⟩
  · rintro ⟨⟩

/-! ### Leaving and coming back -/

/-- A follower in a cluster of four. -/
def follower : Member where
  delegate := ⟨true, none, [], ∅, "n1", false⟩
  raft := ⟨⟨[⟨"n1", "10.0.0.1:9000"⟩, ⟨"n2", "10.0.0.2:9000"⟩, ⟨"n3", "10.0.0.3:9000"⟩,
    ⟨"n4", "10.0.0.4:9000"⟩], by decide⟩, false⟩

/-- A node leaves and comes back while this node is a follower.  When it has become leader and
processed what it kept, the node is not a voter. -/
theorem rejoined_node_removed :
  ∃ t, machine.run (.start follower)
      [.leave "n2" "n2" "10.0.0.2:9000", .join "n2" "n2" "10.0.0.2:9000", .setLeader true,
        .process ["n2"]] = some t ∧
    t.processed = true ∧ t.last.lookup "n2" = some (.joined "10.0.0.2:9000" true) ∧
    t.address "n2" = none
  := by
  refine ⟨_, rfl, ?_⟩
  decide +kernel

/-- A fifth node joins while this node is a follower, and another leaves when it is leader. -/
theorem join_converges :
  machine.Always Converges (.start follower)
    [.join "n5" "n5" "10.0.0.5:9000", .setLeader true, .process [],
      .leave "n3" "n3" "10.0.0.3:9000", .process []]
  := (converges_iff ⟨rfl, rfl, rfl, rfl⟩ _).mpr (by decide +kernel)

end Convergence

end Cluster

end VmProxyAuth
