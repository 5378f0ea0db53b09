import VmProxyAuth.Cluster.TwoNodes

/-!
# Split brain

Each delegate decides alone.  When a node hears that the other one has left, it becomes the
only server of its configuration, whatever the other node has done.  The two nodes end up
alone in their configurations exactly if a node drops the other while that one is alone
already (`never_split_iff`).
-/

namespace VmProxyAuth

namespace Cluster

open Servers

namespace TwoNodes

variable (c : TwoNodes)

/-- The configuration of a node is the node `x` alone. -/
def Only (x : Side) (n : Member) : Prop := n.raft.configuration.ids = [c.id x]

instance (x : Side) (n : Member) : Decidable (c.Only x n) := inferInstanceAs (Decidable (_ = _))

/-- Each node is alone in its configuration. -/
def Split (s : Side → Member) : Prop := c.Only .a (s .a) ∧ c.Only .b (s .b)

/-- The node `x` drops the other one.  It is in its own configuration, or gets there by a
peer that was kept, and one of the following happens.  It is notified that the other node, a
peer, has left, and it knows its own address and its configuration, or is the leader and the
removal is applied.  Or it is the leader, and the first of the removals it has kept that is
applied is that of the other node. -/
def dropsOther (x : Side) (n : Member) : MemberAction → Bool
  | .leave node answers =>
    match node.nodeMeta with
    | .metadata m =>
      !n.delegate.shutdownFlag && n.delegate.hasRaftMgr && m.role == peerRole &&
        m.nodeID == c.id x.other && decide (c.id x ∈ n.raft.configuration.ids) &&
        ((answers.getConfiguration.isNone &&
            getSurvivingNodeAddress n.delegate (c.id x) != "") ||
          (n.raft.leader && (answers.removeServer (c.id x.other)).applied))
    | _ => false
  | .process order answers =>
    n.delegate.hasRaftMgr && n.raft.leader &&
      (decide (c.id x ∈ n.raft.configuration.ids) ||
        n.delegate.pendingPeers.any (fun p =>
          (answers.addVoter p.nodeID).applied && p.nodeID == c.id x)) &&
      order.find? (fun k => (answers.removeServer k).applied) == some (c.id x.other)
  | _ => false

/-- No node drops the other one while that one is alone in its configuration. -/
def keepsOther (s : Side → Member) : Action → Bool
  | .act x a => !(decide (c.Only x.other (s x.other)) && c.dropsOther x (s x) a)
  | .replicate _ => true

variable {c}

theorem split_iff (x : Side) (s : Side → Member) :
  c.Split s ↔ c.Only x (s x) ∧ c.Only x.other (s x.other)
  := by
  cases x with
  | a => rfl
  | b => apply and_comm

/-- A configuration that has the other node is not the node alone. -/
theorem ids_ne_of_other_mem {x : Side} {configuration : Configuration}
    (h : c.id x.other ∈ configuration.ids) :
  configuration.ids ≠ [c.id x]
  := by
  intro honly
  rw [honly, List.mem_singleton] at h
  apply c.id_other_ne x h

/-- A configuration that does not have a node is the other node alone. -/
theorem Within.ids_eq_other {configuration : Configuration} (h : c.Within configuration)
    {x : Side} (hx : c.id x ∉ configuration.ids) :
  configuration.ids = [c.id x.other]
  := by
  by_contra hne
  apply hx
  cases x with
  | a => apply h.other_mem hne
  | b => apply h.other_mem hne

/-! ### Leaves -/

/-- Among two nodes, the survivor of one is the other, if it has an address. -/
theorem findSurvivingNode_eq (d : RaftDelegate) {i failed : String} (hne : i ≠ failed)
    {peers : List String} (hpeers : ∀ p ∈ peers, p = i ∨ p = failed) :
  findSurvivingNode d failed peers
    = if i ∈ peers ∧ getSurvivingNodeAddress d i ≠ "" then (i, getSurvivingNodeAddress d i)
      else ("", "")
  := by
  induction peers with
  | nil => simp [findSurvivingNode]
  | cons p peers ih =>
    rw [List.forall_mem_cons] at hpeers
    rw [findSurvivingNode, ih hpeers.2]
    rcases hpeers.1 with rfl | rfl
    · by_cases haddress : getSurvivingNodeAddress d p = ""
      · simp [hne, haddress]
      · simp [hne, haddress]
    · simp [hne]

/-- When the other node has failed, a node that has both in its configuration recovers as the
only server, if it knows its configuration and its own address. -/
theorem recovery_of_other {x : Side} {n : Member} (hn : c.InCluster n)
    (hother : c.id x.other ∈ n.raft.configuration.ids) (answers : RaftAnswers) :
  handleEmergencyRecovery n (c.id x.other) answers
    = if c.id x ∈ n.raft.configuration.ids ∧ answers.getConfiguration = none ∧
          getSurvivingNodeAddress n.delegate (c.id x) ≠ "" then
        some { n with raft := n.raft.forceRecoverCluster (c.id x)
                        (getSurvivingNodeAddress n.delegate (c.id x)) }
      else none
  := by
  have hwithin : ∀ p ∈ n.raft.configuration.ids, p = c.id x ∨ p = c.id x.other :=
    fun p hp => (c.has_iff x p).mp (hn.within.2 p hp)
  have hpair := Configuration.length_eq_two_iff (c.id_other_ne x).symm hwithin
  rw [handleEmergencyRecovery]
  cases hconfiguration : answers.getConfiguration with
  | some e => simp [RaftState.getPeers]
  | none =>
    simp only [RaftState.getPeers, findSurvivingNode_eq n.delegate (c.id_other_ne x).symm hwithin]
    by_cases hx : c.id x ∈ n.raft.configuration.ids
    · rw [if_neg (not_not.mpr (hpair.mpr ⟨hx, hother⟩))]
      by_cases haddress : getSurvivingNodeAddress n.delegate (c.id x) = ""
      · simp [haddress]
      · simp [hx, haddress, c.named x]
    · rw [if_pos (fun hlength => hx (hpair.mp hlength).1)]
      simp [hx]

/-- A removal by the leader leaves a node alone exactly if it is that of the other node, and
is applied to a configuration of both. -/
theorem only_removeServer_iff {x : Side} {r : RaftState} (hr : c.Within r.configuration)
    (hother : c.id x.other ∈ r.configuration.ids) (hleader : r.leader = true)
    (answer : RaftAnswer) :
  (r.removeServer (c.id x.other) answer).1.configuration.ids = [c.id x] ↔
    c.id x ∈ r.configuration.ids ∧ answer.applied = true
  := by
  cases happlied : answer.applied with
  | false =>
    rw [RaftState.removeServer_of_not_applied happlied]
    simp only [Bool.false_eq_true, and_false, iff_false]
    apply ids_ne_of_other_mem hother
  | true =>
    rw [and_iff_left rfl]
    by_cases hx : c.id x ∈ r.configuration.ids
    · simp only [hx, iff_true]
      apply Configuration.ids_eq_singleton_iff.mpr
      intro j
      rw [RaftState.mem_ids_removeServer hleader happlied hx (c.id_other_ne x).symm]
      constructor
      · rintro ⟨hj, hne⟩
        apply ((c.has_iff x j).mp (hr.2 j hj)).resolve_right hne
      · rintro rfl
        exact ⟨hx, (c.id_other_ne x).symm⟩
    · simp only [hx, iff_false]
      rw [RaftState.ids_removeServer_of_only (hr.ids_eq_other hx), List.cons.injEq]
      exact fun h => c.id_other_ne x h.1

/-- The leave of the other node leaves a node alone exactly if the node recovers, or removes
the other one as leader. -/
theorem only_removeRaftPeer_other {x : Side} {n : Member} (hn : c.InCluster n)
    (hother : c.id x.other ∈ n.raft.configuration.ids) (answers : RaftAnswers) :
  c.Only x (removeRaftPeer n (c.id x.other) answers) ↔
    n.delegate.hasRaftMgr = true ∧ c.id x ∈ n.raft.configuration.ids ∧
      ((answers.getConfiguration = none ∧ getSurvivingNodeAddress n.delegate (c.id x) ≠ "") ∨
        (n.raft.leader = true ∧ (answers.removeServer (c.id x.other)).applied = true))
  := by
  rw [removeRaftPeer, recovery_of_other hn hother]
  cases hmgr : n.delegate.hasRaftMgr with
  | false =>
    simp only [Bool.not_false, if_true, Bool.false_eq_true, false_and, iff_false]
    apply ids_ne_of_other_mem hother
  | true =>
    simp only [Bool.not_true, Bool.false_eq_true, if_false, true_and]
    split_ifs with hrecovers
    · simp only [Option.some_or, Option.getD_some]
      apply iff_of_true rfl ⟨hrecovers.1, Or.inl hrecovers.2⟩
    · rw [Option.none_or, handleNonLeaderRemoval]
      cases hleader : n.raft.leader with
      | false =>
        simp only [Bool.false_eq_true, if_false, Option.getD_some, false_and, or_false, hrecovers,
          iff_false]
        apply ids_ne_of_other_mem hother
      | true =>
        simp only [if_true, Option.getD_none, true_and]
        rw [Only, performPeerRemoval, only_removeServer_iff hn.within hother hleader]
        tauto

/-- The leave of a node itself does not leave it alone. -/
theorem not_only_removeRaftPeer_self {x : Side} {n : Member}
    (hother : c.id x.other ∈ n.raft.configuration.ids) (answers : RaftAnswers) :
  ¬ c.Only x (removeRaftPeer n (c.id x) answers)
  := by
  rw [removeRaftPeer, Only]
  split_ifs
  · apply ids_ne_of_other_mem hother
  · cases hrecovered : handleEmergencyRecovery n (c.id x) answers with
    | some m =>
      obtain ⟨-, i, -, hne, hids⟩ := recovered_cases hrecovered
      rw [Option.some_or, Option.getD_some, hids, List.cons.injEq]
      exact fun h => hne h.1
    | none =>
      rw [Option.none_or, handleNonLeaderRemoval]
      split_ifs with hleader
      · apply ids_ne_of_other_mem
        rw [Option.getD_none, performPeerRemoval]
        cases happlied : (answers.removeServer (c.id x)).applied with
        | false => rwa [RaftState.removeServer_of_not_applied happlied]
        | true =>
          apply (RaftState.mem_ids_removeServer hleader happlied hother (c.id_other_ne x)).mpr
          exact ⟨hother, c.id_other_ne x⟩
      · apply ids_ne_of_other_mem hother

/-! ### The removals that were kept -/

/-- The removals that were kept leave a node alone exactly if the first one that is applied is
that of the other node, and the configuration has both. -/
theorem only_removePending_iff {x : Side} {r : RaftState} (hr : c.Within r.configuration)
    (hother : c.id x.other ∈ r.configuration.ids) (hleader : r.leader = true)
    (answers : RaftAnswers) {order : List String} (horder : ∀ k ∈ order, c.Has k) :
  (removePending r answers order).configuration.ids = [c.id x] ↔
    c.id x ∈ r.configuration.ids ∧
      order.find? (fun k => (answers.removeServer k).applied) = some (c.id x.other)
  := by
  by_cases hx : c.id x ∈ r.configuration.ids
  · rw [and_iff_right hx]
    induction order with
    | nil => simpa [removePending] using ids_ne_of_other_mem hother
    | cons k order ih =>
      rw [List.forall_mem_cons] at horder
      rw [removePending, List.foldl_cons, ← removePending]
      cases happlied : (answers.removeServer k).applied with
      | false =>
        rw [RaftState.removeServer_of_not_applied happlied,
          List.find?_cons_of_neg (by simp [happlied])]
        apply ih horder.2
      | true =>
        rw [List.find?_cons_of_pos (p := fun k => (answers.removeServer k).applied) happlied,
          Option.some.injEq]
        rcases (c.has_iff x k).mp horder.1 with rfl | rfl
        · -- the node itself is removed, and the other one stays
          have hids : (r.removeServer (c.id x) (answers.removeServer (c.id x))).1.configuration.ids
              = [c.id x.other] := by
            apply Within.ids_eq_other (hr.removeServer _ _)
            rw [RaftState.mem_ids_removeServer hleader happlied hother (c.id_other_ne x)]
            exact fun h => h.2 rfl
          rw [ids_removePending_of_only hids, List.cons.injEq]
          simp [c.id_other_ne x, (c.id_other_ne x).symm]
        · have hids := (only_removeServer_iff hr hother hleader _).mpr ⟨hx, happlied⟩
          rw [ids_removePending_of_only hids]
          simp
  · rw [ids_removePending_of_only (hr.ids_eq_other hx), List.cons.injEq]
    simp [hx, c.id_other_ne x]

/-! ### Steps and runs -/

/-- A join keeps the other node in the configuration. -/
theorem other_mem_notifyJoin {x : Side} {n : Member}
    (hother : c.id x.other ∈ n.raft.configuration.ids) (node : Node) (answers : RaftAnswers) :
  c.id x.other ∈ (notifyJoin n node answers).raft.configuration.ids
  := by
  rw [notifyJoin]
  split_ifs
  · apply hother
  · split
    · apply hother
    · split_ifs
      · rw [addRaftPeer]
        split_ifs with hmgr hleader
        · apply hother
        · apply (RaftState.mem_ids_addVoter hleader).mpr (Or.inr hother)
        · apply hother
        · apply hother
      · apply hother

/-- A leave leaves a node alone exactly if the node drops the other one. -/
theorem only_notifyLeave_iff {x : Side} {n : Member} (hn : c.InCluster n)
    (hother : c.id x.other ∈ n.raft.configuration.ids) {node : Node} (hnode : c.concerns node)
    (answers : RaftAnswers) :
  c.Only x (notifyLeave n node answers) ↔ c.dropsOther x n (.leave node answers) = true
  := by
  have hstays : ¬ c.Only x n := ids_ne_of_other_mem hother
  rw [notifyLeave, dropsOther]
  cases hshutdown : n.delegate.shutdownFlag with
  | true =>
    rw [if_pos rfl]
    cases node.nodeMeta <;> simp [hstays]
  | false =>
    rw [if_neg Bool.false_ne_true]
    cases hmeta : node.nodeMeta with
    | empty => simp [unmarshalNodeMetadata, hstays]
    | malformed => simp [unmarshalNodeMetadata, hstays]
    | metadata m =>
      simp only [unmarshalNodeMetadata]
      have hid : c.Has m.nodeID := has_of_concerns hnode (by rw [hmeta]; rfl)
      split_ifs with hrole
      · rcases (c.has_iff x _).mp hid with hself | hleft
        · rw [hself]
          simp [not_only_removeRaftPeer_self hother, (c.id_other_ne x).symm]
        · rw [hleft, only_removeRaftPeer_other hn hother]
          simp [hrole, and_assoc]
      · simp [hrole, hstays]

/-- Processing what was kept leaves a node alone exactly if the node drops the other one. -/
theorem only_processPendingPeers_iff {x : Side} {n : Member} (hn : c.InCluster n)
    (hother : c.id x.other ∈ n.raft.configuration.ids) {order : List String}
    (horder : order.Perm n.delegate.pendingRemovals.keys) (answers : RaftAnswers) :
  c.Only x (processPendingPeers n order answers) ↔
    c.dropsOther x n (.process order answers) = true
  := by
  rw [processPendingPeers, dropsOther, Only]
  cases hmgr : n.delegate.hasRaftMgr with
  | false => simpa using ids_ne_of_other_mem hother
  | true =>
    cases hleader : n.raft.leader with
    | false => simpa using ids_ne_of_other_mem hother
    | true =>
      have hhas : ∀ k ∈ order, c.Has k :=
        fun k hk => hn.removals k (AList.mem_keys.mpr (horder.mem_iff.mp hk))
      have hadded := hn.within.addPending answers hn.peers
      have hotherAdded : c.id x.other ∈
          (addPending n.raft answers n.delegate.pendingPeers).configuration.ids :=
        (mem_ids_addPending hleader).mpr (Or.inr hother)
      have hleaderAdded := (leader_addPending n.raft answers n.delegate.pendingPeers).trans hleader
      simp only [Bool.not_true, Bool.or_self, Bool.false_eq_true, if_false]
      rw [only_removePending_iff hadded hotherAdded hleaderAdded answers hhas,
        mem_ids_addPending hleader, or_comm]
      simp only [Bool.and_eq_true, Bool.or_eq_true, decide_eq_true_eq, List.any_eq_true,
        beq_iff_eq, true_and, eq_comm (a := c.id x)]

/-- The steps that leave a node alone, when its configuration has the other one, are those that
drop the other one. -/
theorem only_memberStep_iff {x : Side} {n m : Member} {a : MemberAction} (hn : c.InCluster n)
    (hother : c.id x.other ∈ n.raft.configuration.ids) (h : c.memberStep n a = some m) :
  c.Only x m ↔ c.dropsOther x n a = true
  := by
  cases a with
  | join node answers =>
    obtain ⟨-, ⟨⟩⟩ := Option.ite_none_right_eq_some.mp h
    apply iff_of_false (ids_ne_of_other_mem (other_mem_notifyJoin hother node answers))
      Bool.false_ne_true
  | leave node answers =>
    obtain ⟨hnode, ⟨⟩⟩ := Option.ite_none_right_eq_some.mp h
    apply only_notifyLeave_iff hn hother hnode
  | process order answers =>
    obtain ⟨horder, ⟨⟩⟩ := Option.ite_none_right_eq_some.mp h
    apply only_processPendingPeers_iff hn hother horder
  | leadership leader =>
    cases h
    apply iff_of_false (ids_ne_of_other_mem hother) Bool.false_ne_true
  | members members =>
    cases h
    apply iff_of_false (ids_ne_of_other_mem hother) Bool.false_ne_true
  | shutdown =>
    cases h
    apply iff_of_false (ids_ne_of_other_mem hother) Bool.false_ne_true

/-- A step from a cluster that is not split splits it exactly if a node drops the other one
while that one is alone. -/
theorem not_split_step_iff {s t : Side → Member} {a : Action} (hs : ∀ x, c.InCluster (s x))
    (hsplit : ¬ c.Split s) (h : c.step s a = some t) :
  ¬ c.Split t ↔ c.keepsOther s a = true
  := by
  cases a with
  | act x a =>
    obtain ⟨m, hm, rfl⟩ := Option.map_eq_some_iff.mp h
    have hne : x.other ≠ x := by cases x <;> decide
    rw [split_iff x, Function.update_self, Function.update_of_ne hne, keepsOther]
    by_cases honly : c.Only x.other (s x.other)
    · have hx : ¬ c.Only x (s x) := fun hx => hsplit ((split_iff x s).mpr ⟨hx, honly⟩)
      rw [only_memberStep_iff (hs x) ((hs x).within.other_mem hx) hm]
      simp [honly]
    · simp [honly]
  | replicate x =>
    obtain ⟨-, ⟨⟩⟩ := Option.ite_none_right_eq_some.mp h
    have hne : x ≠ x.other := by cases x <;> decide
    refine iff_of_true ?_ rfl
    rw [split_iff x, Function.update_self, Function.update_of_ne hne]
    rintro ⟨hx, hother⟩
    -- both configurations are the one of the leader
    apply c.id_other_ne x (List.cons.inj (hother.symm.trans hx)).1

/-- In a run of a cluster of two nodes that is not split, it is never split exactly if no node
drops the other one while that one is alone in its configuration. -/
theorem never_split_iff (c : TwoNodes) (s : Side → Member) (actions : List Action)
    (hs : ∀ x, c.InCluster (s x)) (hsplit : ¬ c.Split s) :
  c.machine.Always (fun t => ¬ c.Split t) s actions ↔
    c.machine.Meets (fun t a => c.keepsOther t a = true) s actions
  := by
  have hJ : ∀ s a t, (∀ x, c.InCluster (s x)) → c.machine.step s a = some t →
      ∀ x, c.InCluster (t x) := fun _ _ _ => inCluster_step
  apply Machine.always_iff_meets hJ (fun _ _ _ => not_split_step_iff) hs hsplit

/-! ### A partition -/

/-- The nodes `A` and `B`. -/
def nodesAB : TwoNodes where
  id
    | .a => "A"
    | .b => "B"
  distinct := by decide
  named x := by cases x <;> decide

/-- The entry of a peer in the member list. -/
def peerNode (nodeID raftAddress : String) : Node :=
  ⟨nodeID, .metadata ⟨nodeID, raftAddress, peerRole⟩⟩

/-- A node that has both in its configuration and itself in its member list. -/
def freshMember (nodeID raftAddress : String) : Member where
  delegate :=
    { hasRaftMgr := true
      members := some [peerNode nodeID raftAddress]
      pendingPeers := []
      pendingRemovals := ∅
      localNodeName := nodeID
      shutdownFlag := false }
  raft := ⟨⟨[⟨"A", "10.0.0.1:9000"⟩, ⟨"B", "10.0.0.2:9000"⟩], by decide⟩, false⟩

/-- The two nodes after a partition, each with itself in its member list. -/
def partitioned : Side → Member
  | .a => freshMember "A" "10.0.0.1:9000"
  | .b => freshMember "B" "10.0.0.2:9000"

/-- The Raft library makes no change. -/
def noAnswers : RaftAnswers := ⟨none, fun _ => ⟨false, none⟩, fun _ => ⟨false, none⟩⟩

/-- Each node is notified that the other one has left, and each is alone afterwards. -/
theorem partition_splits :
  ¬ nodesAB.Split partitioned ∧
    ∃ t, nodesAB.machine.run partitioned
        [.act .a (.leave (peerNode "B" "10.0.0.2:9000") noAnswers),
          .act .b (.leave (peerNode "A" "10.0.0.1:9000") noAnswers)] = some t ∧
      nodesAB.Split t
  := by
  refine ⟨fun h => absurd h.1 (by decide +kernel), _, rfl, ?_⟩
  exact ⟨rfl, rfl⟩

theorem inCluster_partitioned (x : Side) :
  nodesAB.InCluster (partitioned x)
  := by
  cases x <;> exact ⟨⟨by decide +kernel, by decide +kernel⟩, by decide +kernel, by decide +kernel⟩

/-- If only one of the nodes is notified, the cluster is not split. -/
theorem one_leave_never_splits :
  nodesAB.machine.Always (fun t => ¬ nodesAB.Split t) partitioned
    [.act .a (.leave (peerNode "B" "10.0.0.2:9000") noAnswers)]
  := (never_split_iff nodesAB partitioned _ inCluster_partitioned
      (fun h => absurd h.1 (by decide +kernel))).mpr (by decide +kernel)

end TwoNodes

end Cluster

end VmProxyAuth
