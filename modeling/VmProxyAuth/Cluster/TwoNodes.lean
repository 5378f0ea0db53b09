import VmProxyAuth.Cluster.Delegate
import VmProxyAuth.Lib.Machine

/-!
# A cluster of two nodes

The delegates of two nodes are notified of each other, and of themselves, in any order.
`TwoNodes.memberStep` is one step of one node, `TwoNodes.machine` the machine of both.  A
configuration never leaves the two nodes and is never empty (`inCluster_step`).
-/

namespace VmProxyAuth

namespace Cluster

open Servers

/-! ### What the Raft manager does to the configuration -/

namespace RaftState

@[simp]
theorem leader_addVoter (r : RaftState) (nodeID address : String) (answer : RaftAnswer) :
  (r.addVoter nodeID address answer).1.leader = r.leader
  := by
  rw [addVoter]
  split_ifs <;> rfl

theorem mem_ids_addVoter {r : RaftState} {nodeID address j : String} {answer : RaftAnswer}
    (hleader : r.leader = true) :
  j ∈ (r.addVoter nodeID address answer).1.configuration.ids ↔
    (answer.applied = true ∧ j = nodeID) ∨ j ∈ r.configuration.ids
  := by
  rw [addVoter, hleader]
  cases happlied : answer.applied with
  | true => simp [Configuration.mem_ids_addVoter]
  | false => simp

/-- A removal that is not applied changes nothing. -/
theorem removeServer_of_not_applied {r : RaftState} {nodeID : String} {answer : RaftAnswer}
    (h : answer.applied = false) :
  (r.removeServer nodeID answer).1 = r
  := by
  rw [removeServer, h]
  split_ifs with h₁ h₂
  · rfl
  · cases h₂
  · rfl

/-- A removal that is applied removes the server, if there is another one. -/
theorem mem_ids_removeServer {r : RaftState} {nodeID other j : String} {answer : RaftAnswer}
    (hleader : r.leader = true) (happlied : answer.applied = true)
    (hother : other ∈ r.configuration.ids) (hne : other ≠ nodeID) :
  j ∈ (r.removeServer nodeID answer).1.configuration.ids ↔
    j ∈ r.configuration.ids ∧ j ≠ nodeID
  := by
  rw [removeServer, hleader, happlied]
  cases hremoved : r.configuration.removeServer nodeID with
  | none => exact absurd (Configuration.removeServer_eq_none_iff.mp hremoved other hother) hne
  | some c => simpa using Configuration.mem_ids_of_removeServer hremoved

/-- The only server of a configuration is not removed. -/
theorem ids_removeServer_of_only {r : RaftState} {i nodeID : String} {answer : RaftAnswer}
    (h : r.configuration.ids = [i]) :
  (r.removeServer nodeID answer).1.configuration.ids = [i]
  := by
  rw [removeServer]
  split_ifs
  · apply h
  · cases hremoved : r.configuration.removeServer nodeID with
    | none => simpa using h
    | some c =>
      apply Configuration.ids_eq_singleton_iff.mpr
      intro j
      rw [Option.getD_some, Configuration.mem_ids_of_removeServer hremoved, h,
        List.mem_singleton, and_iff_left_iff_imp]
      rintro rfl rfl
      have hnone : r.configuration.removeServer j = none := by
        apply Configuration.removeServer_eq_none_iff.mpr
        rw [h]
        intro k hk
        apply List.mem_singleton.mp hk
      rw [hnone] at hremoved
      cases hremoved
  · apply h

theorem getPeers_eq_ok {r : RaftState} {err : Option GoError} {peers : List String} :
  r.getPeers err = .ok peers ↔ err = none ∧ peers = r.configuration.ids
  := by
  cases err with
  | none => simp [getPeers, eq_comm]
  | some e => simp [getPeers]

end RaftState

theorem leader_addPending (r : RaftState) (answers : RaftAnswers) (peers : List PendingPeer) :
  (addPending r answers peers).leader = r.leader
  := by
  induction peers generalizing r with
  | nil => rfl
  | cons p peers ih =>
    rw [addPending, List.foldl_cons, ← addPending, ih, RaftState.leader_addVoter]

theorem mem_ids_addPending {r : RaftState} {answers : RaftAnswers} {peers : List PendingPeer}
    {j : String} (hleader : r.leader = true) :
  j ∈ (addPending r answers peers).configuration.ids ↔
    (∃ p ∈ peers, (answers.addVoter p.nodeID).applied = true ∧ j = p.nodeID) ∨
      j ∈ r.configuration.ids
  := by
  induction peers generalizing r with
  | nil => simp [addPending]
  | cons p peers ih =>
    rw [addPending, List.foldl_cons, ← addPending, ih (by rw [RaftState.leader_addVoter, hleader]),
      RaftState.mem_ids_addVoter hleader, List.exists_mem_cons_iff,
      or_left_comm, or_assoc]

theorem ids_removePending_of_only {r : RaftState} {answers : RaftAnswers} {order : List String}
    {i : String} (h : r.configuration.ids = [i]) :
  (removePending r answers order).configuration.ids = [i]
  := by
  induction order generalizing r with
  | nil => apply h
  | cons k order ih =>
    rw [removePending, List.foldl_cons, ← removePending]
    apply ih (RaftState.ids_removeServer_of_only h)

/-! ### The nodes and their steps -/

/-- One of the two nodes. -/
inductive Side where
  | a
  | b
  deriving DecidableEq, Repr

/-- The other node. -/
def Side.other : Side → Side
  | .a => .b
  | .b => .a

/-- The identifiers of the two nodes. -/
structure TwoNodes where
  id : Side → String
  distinct : id .a ≠ id .b
  named : ∀ x, id x ≠ ""

/-- What can happen at a node: a notification, the processing of what was kept, or a change
of its leadership, of its member list or of its shutdown flag. -/
inductive MemberAction where
  | join (node : Node) (answers : RaftAnswers)
  | leave (node : Node) (answers : RaftAnswers)
  | process (order : List String) (answers : RaftAnswers)
  | leadership (leader : Bool)
  | members (members : Option (List Node))
  | shutdown

namespace TwoNodes

variable (c : TwoNodes)

theorem id_other_ne (x : Side) :
  c.id x.other ≠ c.id x
  := by
  cases x with
  | a => apply c.distinct.symm
  | b => apply c.distinct

/-- A node identifier is one of the two. -/
def Has (j : String) : Prop := j = c.id .a ∨ j = c.id .b

instance (j : String) : Decidable (c.Has j) := inferInstanceAs (Decidable (_ ∨ _))

theorem has_iff (x : Side) (j : String) :
  c.Has j ↔ j = c.id x ∨ j = c.id x.other
  := by
  cases x with
  | a => rfl
  | b => apply or_comm

/-- A notification is about one of the two nodes, if its metadata can be read. -/
def concerns (node : Node) : Bool :=
  match node.nodeMeta with
  | .metadata m => decide (c.Has m.nodeID)
  | _ => true

/-- One step of a node. -/
def memberStep (n : Member) : MemberAction → Option Member
  | .join node answers => if c.concerns node then some (notifyJoin n node answers) else none
  | .leave node answers => if c.concerns node then some (notifyLeave n node answers) else none
  | .process order answers =>
    if order.Perm n.delegate.pendingRemovals.keys then some (processPendingPeers n order answers)
    else none
  | .leadership leader => some { n with raft := { n.raft with leader := leader } }
  | .members members => some { n with delegate := { n.delegate with members := members } }
  | .shutdown => some { n with delegate := { n.delegate with shutdownFlag := true } }

/-- A step of the cluster: a step of a node, or the leader's configuration reaches the other
node. -/
inductive Action where
  | act (x : Side) (a : MemberAction)
  | replicate (x : Side)

/-- One step of the cluster. -/
def step (s : Side → Member) : Action → Option (Side → Member)
  | .act x a => (c.memberStep (s x) a).map (Function.update s x)
  | .replicate x =>
    if (s x).raft.leader ∧ c.id x.other ∈ (s x).raft.configuration.ids then
      some (Function.update s x.other
        { s x.other with
          raft := { (s x.other).raft with configuration := (s x).raft.configuration } })
    else none

/-- The machine of the two nodes. -/
def machine : Machine (Side → Member) Action := ⟨c.step⟩

/-! ### The configurations stay within the cluster -/

/-- A configuration has servers, and only servers that are one of the two nodes. -/
def Within (configuration : Configuration) : Prop :=
  configuration.ids ≠ [] ∧ ∀ j ∈ configuration.ids, c.Has j

/-- What a node has recorded is about the two nodes, and it has a configuration. -/
structure InCluster (n : Member) : Prop where
  within : c.Within n.raft.configuration
  peers : ∀ p ∈ n.delegate.pendingPeers, c.Has p.nodeID
  removals : ∀ k ∈ n.delegate.pendingRemovals, c.Has k

variable {c}

/-- A configuration within the cluster that is not one node alone has the other. -/
theorem Within.other_mem {configuration : Configuration} (h : c.Within configuration) {x : Side}
    (hx : configuration.ids ≠ [c.id x]) :
  c.id x.other ∈ configuration.ids
  := by
  by_contra hother
  have hall : ∀ j ∈ configuration.ids, j = c.id x := by
    intro j hj
    rcases (c.has_iff x j).mp (h.2 j hj) with rfl | rfl
    · rfl
    · exact absurd hj hother
  apply hx
  apply Configuration.ids_eq_singleton_iff.mpr
  intro j
  constructor
  · apply hall j
  · rintro rfl
    obtain ⟨k, hk⟩ := List.exists_mem_of_ne_nil _ h.1
    rw [← hall k hk]
    apply hk

theorem Within.addVoter {r : RaftState} (h : c.Within r.configuration) {nodeID : String}
    (hid : c.Has nodeID) (address : String) (answer : RaftAnswer) :
  c.Within (r.addVoter nodeID address answer).1.configuration
  := by
  cases hleader : r.leader with
  | false =>
    rw [RaftState.addVoter, hleader]
    apply h
  | true =>
    constructor
    · obtain ⟨k, hk⟩ := List.exists_mem_of_ne_nil _ h.1
      apply List.ne_nil_of_mem ((RaftState.mem_ids_addVoter hleader).mpr (Or.inr hk))
    · intro j hj
      rcases (RaftState.mem_ids_addVoter hleader).mp hj with ⟨-, rfl⟩ | hj
      · apply hid
      · apply h.2 j hj

theorem Within.removeServer {r : RaftState} (h : c.Within r.configuration) (nodeID : String)
    (answer : RaftAnswer) :
  c.Within (r.removeServer nodeID answer).1.configuration
  := by
  rw [RaftState.removeServer]
  split_ifs
  · apply h
  · cases hremoved : r.configuration.removeServer nodeID with
    | none => apply h
    | some d =>
      constructor
      · apply Configuration.ids_ne_nil_of_removeServer hremoved
      · intro j hj
        apply h.2 j ((Configuration.mem_ids_of_removeServer hremoved).mp hj).1
  · apply h

theorem Within.addPending {r : RaftState} (h : c.Within r.configuration) (answers : RaftAnswers)
    {peers : List PendingPeer} (hpeers : ∀ p ∈ peers, c.Has p.nodeID) :
  c.Within (Cluster.addPending r answers peers).configuration
  := by
  induction peers generalizing r with
  | nil => apply h
  | cons p peers ih =>
    rw [Cluster.addPending, List.foldl_cons, ← Cluster.addPending]
    rw [List.forall_mem_cons] at hpeers
    apply ih (h.addVoter hpeers.1 _ _) hpeers.2

theorem Within.removePending {r : RaftState} (h : c.Within r.configuration)
    (answers : RaftAnswers) (order : List String) :
  c.Within (Cluster.removePending r answers order).configuration
  := by
  induction order generalizing r with
  | nil => apply h
  | cons k order ih =>
    rw [Cluster.removePending, List.foldl_cons, ← Cluster.removePending]
    apply ih (h.removeServer k _)

/-- The surviving node is one of the peers, and not the failed one. -/
theorem findSurvivingNode_spec (d : RaftDelegate) (failedNodeID : String) (peers : List String) :
  findSurvivingNode d failedNodeID peers = ("", "") ∨
    (findSurvivingNode d failedNodeID peers).1 ∈ peers ∧
      (findSurvivingNode d failedNodeID peers).1 ≠ failedNodeID
  := by
  induction peers with
  | nil => apply Or.inl rfl
  | cons p peers ih =>
    rw [findSurvivingNode]
    split_ifs with hfailed haddress
    · apply ih.imp_right (fun h => ⟨List.mem_cons_of_mem p h.1, h.2⟩)
    · apply Or.inr ⟨List.mem_cons_self, hfailed⟩
    · apply ih.imp_right (fun h => ⟨List.mem_cons_of_mem p h.1, h.2⟩)

/-- A recovery makes one of two servers, not the failed one, the only one. -/
theorem recovered_cases {n m : Member} {nodeID : String} {answers : RaftAnswers}
    (h : handleEmergencyRecovery n nodeID answers = some m) :
  m.delegate = n.delegate ∧
    ∃ i ∈ n.raft.configuration.ids, i ≠ nodeID ∧ m.raft.configuration.ids = [i]
  := by
  rw [handleEmergencyRecovery] at h
  split at h
  · cases h
  · rename_i peers hpeers
    obtain ⟨-, hids⟩ := RaftState.getPeers_eq_ok.mp hpeers
    dsimp only at h
    split_ifs at h with hlength hnone
    cases h
    use rfl
    rcases findSurvivingNode_spec n.delegate nodeID peers with heq | ⟨hmem, hne⟩
    · rw [heq] at hnone
      exact absurd (Or.inl rfl) hnone
    · exact ⟨_, hids ▸ hmem, hne, rfl⟩

theorem InCluster.addRaftPeer {n : Member} (h : c.InCluster n) {nodeID : String}
    (hid : c.Has nodeID) (raftAddress : String) (answers : RaftAnswers) :
  c.InCluster (Cluster.addRaftPeer n nodeID raftAddress answers)
  := by
  rw [Cluster.addRaftPeer]
  split_ifs
  · apply h
  · exact ⟨h.within.addVoter hid _ _, h.peers, h.removals⟩
  · apply h
  · refine ⟨h.within, ?_, h.removals⟩
    intro p hp
    rcases List.mem_append.mp hp with hp | hp
    · apply h.peers p hp
    · rw [List.mem_singleton.mp hp]
      apply hid

theorem InCluster.removeRaftPeer {n : Member} (h : c.InCluster n) {nodeID : String}
    (hid : c.Has nodeID) (answers : RaftAnswers) :
  c.InCluster (Cluster.removeRaftPeer n nodeID answers)
  := by
  rw [Cluster.removeRaftPeer]
  split_ifs
  · apply h
  · cases hrecovered : handleEmergencyRecovery n nodeID answers with
    | some m =>
      obtain ⟨hdelegate, i, hi, -, hids⟩ := recovered_cases hrecovered
      rw [Option.some_or, Option.getD_some]
      refine ⟨⟨?_, ?_⟩, hdelegate ▸ h.peers, hdelegate ▸ h.removals⟩
      · rw [hids]
        apply List.cons_ne_nil
      · rw [hids]
        intro j hj
        rw [List.mem_singleton.mp hj]
        apply h.within.2 i hi
    | none =>
      rw [Option.none_or, handleNonLeaderRemoval]
      split_ifs
      · exact ⟨h.within.removeServer nodeID _, h.peers, h.removals⟩
      · refine ⟨h.within, h.peers, ?_⟩
        intro k hk
        rcases (AList.mem_insert _).mp hk with rfl | hk
        · apply hid
        · apply h.removals k hk

theorem InCluster.processPendingPeers {n : Member} (h : c.InCluster n) (order : List String)
    (answers : RaftAnswers) :
  c.InCluster (Cluster.processPendingPeers n order answers)
  := by
  rw [Cluster.processPendingPeers]
  split_ifs
  · apply h
  · refine ⟨(h.within.addPending answers h.peers).removePending answers order, ?_, ?_⟩
    · intro p hp
      cases hp
    · intro k hk
      exact absurd hk (AList.notMem_empty k)

/-- A notification about one of the two nodes names it. -/
theorem has_of_concerns {node : Node} {m : NodeMetadata} (h : c.concerns node)
    (hm : unmarshalNodeMetadata node.nodeMeta = .ok m) :
  c.Has m.nodeID
  := by
  rw [concerns] at h
  cases hmeta : node.nodeMeta with
  | empty =>
    rw [hmeta] at hm
    cases hm
  | malformed =>
    rw [hmeta] at hm
    cases hm
  | metadata m' =>
    rw [hmeta] at h hm
    cases hm
    apply of_decide_eq_true h

/-- A step of a node keeps what it has recorded within the cluster. -/
theorem inCluster_memberStep {n m : Member} {a : MemberAction} (hn : c.InCluster n)
    (h : c.memberStep n a = some m) :
  c.InCluster m
  := by
  cases a with
  | join node answers =>
    obtain ⟨hconcerns, ⟨⟩⟩ := Option.ite_none_right_eq_some.mp h
    rw [notifyJoin]
    split_ifs
    · apply hn
    · split
      · apply hn
      · split_ifs
        · apply hn.addRaftPeer (has_of_concerns hconcerns ‹_›)
        · apply hn
  | leave node answers =>
    obtain ⟨hconcerns, ⟨⟩⟩ := Option.ite_none_right_eq_some.mp h
    rw [notifyLeave]
    split_ifs
    · apply hn
    · split
      · apply hn
      · split_ifs
        · apply hn.removeRaftPeer (has_of_concerns hconcerns ‹_›)
        · apply hn
  | process order answers =>
    obtain ⟨-, ⟨⟩⟩ := Option.ite_none_right_eq_some.mp h
    apply hn.processPendingPeers
  | leadership leader =>
    cases h
    exact ⟨hn.within, hn.peers, hn.removals⟩
  | members members =>
    cases h
    exact ⟨hn.within, hn.peers, hn.removals⟩
  | shutdown =>
    cases h
    exact ⟨hn.within, hn.peers, hn.removals⟩

/-- A step keeps what both nodes have recorded within the cluster. -/
theorem inCluster_step {s t : Side → Member} {a : Action} (hs : ∀ x, c.InCluster (s x))
    (h : c.step s a = some t) :
  ∀ x, c.InCluster (t x)
  := by
  intro y
  cases a with
  | act x a =>
    obtain ⟨m, hm, rfl⟩ := Option.map_eq_some_iff.mp h
    by_cases hy : y = x
    · subst hy
      rw [Function.update_self]
      apply inCluster_memberStep (hs y) hm
    · rw [Function.update_of_ne hy]
      apply hs y
  | replicate x =>
    obtain ⟨-, ⟨⟩⟩ := Option.ite_none_right_eq_some.mp h
    by_cases hy : y = x.other
    · subst hy
      rw [Function.update_self]
      exact ⟨(hs x).within, (hs x.other).peers, (hs x.other).removals⟩
    · rw [Function.update_of_ne hy]
      apply hs y

end TwoNodes

end Cluster

end VmProxyAuth
