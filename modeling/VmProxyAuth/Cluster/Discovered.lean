import VmProxyAuth.Cluster.Convergence
import VmProxyAuth.Cluster.Recovery

/-!
# Discovered peers

The delegate of one node is notified of nodes that join and leave, while any call of the Raft
library may fail.  A peer whose last event is a join should be a voter or be kept for later.  It
is neither if the call that adds it fails, at once or when what was kept is processed, as the
latter is forgotten as a whole; and it is dropped if a removal of it was kept, or if it is one of
two voters when a third node leaves (`remembered_iff`).
-/

namespace VmProxyAuth

namespace Cluster

open Servers

/-! ### What is kept and added -/

/-- The nodes that are kept for later. -/
def RaftDelegate.keptIDs (d : RaftDelegate) : List String :=
  d.pendingPeers.map PendingPeer.nodeID

section

variable {n : Member} {nodeID raftAddress : String} {answers : RaftAnswers}

/-- A leader adds a peer if the library does. -/
theorem mem_ids_addRaftPeer (hmgr : n.delegate.hasRaftMgr = true) {j : String} :
  j ∈ (addRaftPeer n nodeID raftAddress answers).raft.configuration.ids ↔
    j ∈ n.raft.configuration.ids ∨
      n.raft.leader = true ∧ (answers.addVoter nodeID).applied = true ∧ j = nodeID
  := by
  rw [addRaftPeer, if_neg (by simp [hmgr])]
  cases hleader : n.raft.leader with
  | true =>
    rw [if_pos rfl, RaftState.mem_ids_addVoter hleader, or_comm]
    simp
  | false =>
    rw [if_neg (by simp)]
    split_ifs <;> simp

/-- Another node keeps it. -/
theorem mem_keptIDs_addRaftPeer (hmgr : n.delegate.hasRaftMgr = true) {j : String} :
  j ∈ (addRaftPeer n nodeID raftAddress answers).delegate.keptIDs ↔
    j ∈ n.delegate.keptIDs ∨ n.raft.leader = false ∧ j = nodeID
  := by
  rw [addRaftPeer, if_neg (by simp [hmgr])]
  cases hleader : n.raft.leader with
  | true => simp
  | false =>
    rw [if_neg (by simp)]
    split_ifs with hkept
    · have hmem : nodeID ∈ n.delegate.keptIDs := by simpa [RaftDelegate.keptIDs] using hkept
      constructor
      · apply Or.inl
      · rintro (hj | ⟨-, rfl⟩)
        · apply hj
        · apply hmem
    · simp [RaftDelegate.keptIDs]

/-- At most one entry is kept of a node. -/
theorem nodup_keptIDs_addRaftPeer (h : n.delegate.keptIDs.Nodup) :
  (addRaftPeer n nodeID raftAddress answers).delegate.keptIDs.Nodup
  := by
  rw [addRaftPeer]
  split_ifs with hmgr hleader hkept
  · apply h
  · apply h
  · apply h
  · rw [RaftDelegate.keptIDs, List.map_append, List.map_singleton, ← List.concat_eq_append]
    apply h.concat
    simpa [RaftDelegate.keptIDs] using hkept

@[simp]
theorem hasRaftMgr_addRaftPeer :
  (addRaftPeer n nodeID raftAddress answers).delegate.hasRaftMgr = n.delegate.hasRaftMgr
  := by
  rw [addRaftPeer]
  split_ifs <;> rfl

end

/-! ### Removals one after the other -/

/-- A removal is refused or not applied, or the server is gone. -/
theorem RaftState.mem_ids_removeServer_iff {r : RaftState} {nodeID j : String}
    {answer : RaftAnswer} (hleader : r.leader = true) :
  j ∈ (r.removeServer nodeID answer).1.configuration.ids ↔
    j ∈ r.configuration.ids ∧
      ¬ (j = nodeID ∧ answer.applied = true ∧ ∃ k ∈ r.configuration.ids, k ≠ nodeID)
  := by
  by_cases happlied : answer.applied = true
  · by_cases hother : ∃ k ∈ r.configuration.ids, k ≠ nodeID
    · obtain ⟨k, hk, hne⟩ := hother
      have hyes : answer.applied = true ∧ ∃ k ∈ r.configuration.ids, k ≠ nodeID :=
        ⟨happlied, k, hk, hne⟩
      rw [mem_ids_removeServer hleader happlied hk hne, and_iff_left hyes]
    · have hnone : r.configuration.removeServer nodeID = none := by
        apply Configuration.removeServer_eq_none_iff.mpr
        intro k hk
        by_contra hne
        apply hother ⟨k, hk, hne⟩
      simp only [removeServer, hleader, happlied, hnone, hother, and_false, not_false_eq_true,
        and_true]
      simp
  · rw [removeServer_of_not_applied (Bool.eq_false_of_not_eq_true happlied)]
    simp [happlied]

theorem RaftState.leader_removeServer (r : RaftState) (nodeID : String) (answer : RaftAnswer) :
  (r.removeServer nodeID answer).1.leader = r.leader
  := by
  rw [removeServer]
  split_ifs <;> rfl

/-- A server is removed when its turn comes, unless the removal is not applied or all others
have been removed before. -/
def RemovedInTurn (applied : String → Bool) (order : List String) (ids : List String)
    (j : String) : Prop :=
  j ∈ order ∧ applied j = true ∧
    ∃ k ∈ ids, k ≠ j ∧ ¬ (k ∈ order.takeWhile (fun i => i ≠ j) ∧ applied k = true)

/-- The servers that remain are those not removed in their turn. -/
theorem mem_ids_removePending {r : RaftState} (hleader : r.leader = true) {answers : RaftAnswers}
    {order : List String} (hnodup : order.Nodup) {j : String} :
  j ∈ (removePending r answers order).configuration.ids ↔
    j ∈ r.configuration.ids ∧
      ¬ RemovedInTurn (fun i => (answers.removeServer i).applied) order r.configuration.ids j
  := by
  induction order generalizing r with
  | nil => simp [removePending, RemovedInTurn]
  | cons i order ih =>
    obtain ⟨hi, hnodup⟩ := List.nodup_cons.mp hnodup
    rw [removePending, List.foldl_cons, ← removePending,
      ih (by rw [RaftState.leader_removeServer, hleader]) hnodup]
    have hmem : ∀ k, k ∈ (r.removeServer i (answers.removeServer i)).1.configuration.ids ↔ _ :=
      fun k => RaftState.mem_ids_removeServer_iff hleader
    by_cases hj : j = i
    · -- its own turn, and it does not come again
      subst hj
      have hnot : ¬ RemovedInTurn (fun i => (answers.removeServer i).applied) order
          (r.removeServer j (answers.removeServer j)).1.configuration.ids j := fun h => hi h.1
      rw [and_iff_left hnot, hmem]
      simp [RemovedInTurn]
    · have hself : j ∈ (r.removeServer i (answers.removeServer i)).1.configuration.ids ↔
          j ∈ r.configuration.ids := by
        rw [hmem]
        simp [hj]
      rw [hself]
      apply and_congr_right
      intro hjr
      -- as this server is another one, the first is removed if that is applied
      have hrest : ∀ k, k ∈ (r.removeServer i (answers.removeServer i)).1.configuration.ids ↔
          k ∈ r.configuration.ids ∧ ¬ (k = i ∧ (answers.removeServer i).applied = true) := by
        intro k
        rw [hmem]
        have hother : ∃ k ∈ r.configuration.ids, k ≠ i := ⟨j, hjr, hj⟩
        simp only [hother, and_true]
      have htake : (i :: order).takeWhile (fun k => k ≠ j)
          = i :: order.takeWhile (fun k => k ≠ j) := by
        rw [List.takeWhile_cons_of_pos (by simpa using Ne.symm hj)]
      have hnot : i ∉ order.takeWhile (fun k => k ≠ j) := fun h =>
        hi ((List.takeWhile_sublist _).subset h)
      rw [RemovedInTurn, RemovedInTurn, htake]
      simp only [hrest, List.mem_cons, hj, false_or]
      grind

/-! ### The events of one node -/

namespace Discovered

/-- The node; the peers with a Raft address whose last event is a join; and the nodes that count
as added by `AddVoter`. -/
structure State where
  member : Member
  joined : Finset String
  added : Finset String

/-- Whether the metadata are those of a peer with a Raft address. -/
def eligible (metadata : NodeMetadata) : Bool :=
  decide (metadata.role = peerRole ∧ metadata.raftAddress ≠ "")

/-- Whether a node is the own one, of whose join nothing is made. -/
def own (d : RaftDelegate) (node : Node) : Bool :=
  decide (d.localNodeName ≠ "" ∧ d.localNodeName = node.name)

/-- The node and its peers after a join. -/
def join (s : State) (node : Node) (answers : RaftAnswers) : State :=
  match unmarshalNodeMetadata node.nodeMeta with
  | .error _ => { s with member := notifyJoin s.member node answers }
  | .ok metadata =>
    if eligible metadata then
      { member := notifyJoin s.member node answers
        joined := insert metadata.nodeID s.joined
        added :=
          if !own s.member.delegate node && s.member.raft.leader &&
              (answers.addVoter metadata.nodeID).applied then
            insert metadata.nodeID s.added
          else s.added }
    else
      { s with
        member := notifyJoin s.member node answers
        joined := s.joined.erase metadata.nodeID }

/-- The node and its peers after a leave. -/
def leave (s : State) (node : Node) (answers : RaftAnswers) : State :=
  { s with
    member := notifyLeave s.member node answers
    joined :=
      match unmarshalNodeMetadata node.nodeMeta with
      | .error _ => s.joined
      | .ok metadata => s.joined.erase metadata.nodeID }

/-- The nodes kept that the library adds. -/
def addable (d : RaftDelegate) (answers : RaftAnswers) : Finset String :=
  (d.keptIDs.filter (fun j => (answers.addVoter j).applied)).toFinset

/-- The node and its peers after processing what was kept. -/
def process (s : State) (order : List String) (answers : RaftAnswers) : State :=
  { s with
    member := processPendingPeers s.member order answers
    added :=
      if s.member.raft.leader then s.added ∪ addable s.member.delegate answers else s.added }

/-- One event, or a change of leadership, of the member list or of the shutdown flag. -/
def step (s : State) : MemberAction → Option State
  | .join node answers => some (join s node answers)
  | .leave node answers => some (leave s node answers)
  | .process order answers =>
    if order.Perm s.member.delegate.pendingRemovals.keys then some (process s order answers)
    else none
  | .leadership leader =>
    some { s with member := { s.member with raft := { s.member.raft with leader := leader } } }
  | .members members =>
    some { s with
           member := { s.member with delegate := { s.member.delegate with members := members } } }
  | .shutdown =>
    some { s with
           member := { s.member with delegate := { s.member.delegate with shutdownFlag := true } } }

/-- The machine of one node. -/
def machine : Machine State MemberAction := ⟨step⟩

/-- A node is a voter that was added. -/
def State.Voter (s : State) (nodeID : String) : Prop :=
  nodeID ∈ s.added ∧ nodeID ∈ s.member.raft.configuration.ids

/-- Every peer whose last event is a join is a voter that was added, or is kept; and at most one
entry is kept of a node. -/
def Remembered (s : State) : Prop :=
  (∀ j ∈ s.joined, s.Voter j ∨ j ∈ s.member.delegate.keptIDs) ∧ s.member.delegate.keptIDs.Nodup

/-- The voters after the peers kept have been added. -/
def votersAdded (n : Member) (answers : RaftAnswers) : List String :=
  n.raft.configuration.ids ++ n.delegate.keptIDs.filter (fun j => (answers.addVoter j).applied)

/-- What an event must meet: a join is of another node, and applied if the node is leader, or
the peer is a voter or kept already; a node leaves two voters it is none of only if no peer is
dropped; and when what was kept is processed by a leader, every peer kept is added, and no
removal of a peer takes place. -/
def Safe (s : State) : MemberAction → Prop
  | .join node answers =>
    match unmarshalNodeMetadata node.nodeMeta with
    | .error _ => True
    | .ok metadata =>
      eligible metadata = true → s.Voter metadata.nodeID ∨
        metadata.nodeID ∈ s.member.delegate.keptIDs ∨
        own s.member.delegate node = false ∧
          (s.member.raft.leader = true → (answers.addVoter metadata.nodeID).applied = true)
  | .leave node answers =>
    match unmarshalNodeMetadata node.nodeMeta with
    | .error _ => True
    | .ok metadata =>
      metadata.role = peerRole → OutsiderLeaves s.member metadata.nodeID answers →
        ∀ j ∈ s.joined, j ≠ metadata.nodeID → j ∈ s.member.delegate.keptIDs ∨
          s.member.raft.configuration.ids.find? (fun k =>
            getSurvivingNodeAddress s.member.delegate k ≠ "") = some j
  | .process order answers =>
    s.member.raft.leader = true → ∀ j ∈ s.joined,
      (s.Voter j ∨ j ∈ addable s.member.delegate answers) ∧
      ¬ RemovedInTurn (fun i => (answers.removeServer i).applied) order
        (votersAdded s.member answers) j
  | _ => True

/-! ### What an event does -/

/-- What holds of every state: there is a Raft manager, and at most one entry is kept of a
node. -/
structure Sound (s : State) : Prop where
  hasRaftMgr : s.member.delegate.hasRaftMgr = true
  nodup : s.member.delegate.keptIDs.Nodup

section

variable {s t : State}

/-- If the peers are remembered and the others stay as they were, they are remembered exactly if
one more is. -/
theorem remembered_insert_iff {nodeID : String} (hs : Remembered s) (ht : Sound t)
    (hjoined : t.joined = insert nodeID s.joined) (hvoter : ∀ j, s.Voter j → t.Voter j)
    (hkept : ∀ j ∈ s.member.delegate.keptIDs, j ∈ t.member.delegate.keptIDs) :
  Remembered t ↔ t.Voter nodeID ∨ nodeID ∈ t.member.delegate.keptIDs
  := by
  rw [Remembered, hjoined, Finset.forall_mem_insert, and_iff_left ht.nodup]
  apply and_iff_left
  intro j hj
  apply (hs.1 j hj).imp (hvoter j) (hkept j)

/-- If fewer peers are to be remembered, and these stay as they were, they are. -/
theorem remembered_of_subset (hs : Remembered s) (ht : Sound t) (hjoined : t.joined ⊆ s.joined)
    (hvoter : ∀ j ∈ t.joined, s.Voter j → t.Voter j)
    (hkept : t.member.delegate.keptIDs = s.member.delegate.keptIDs) :
  Remembered t
  := by
  use fun j hj => ?_, ht.nodup
  rw [hkept]
  apply (hs.1 j (hjoined hj)).imp_left (hvoter j hj)

/-- A join that says nothing, or not that of a peer, leaves the node as it is. -/
theorem join_of_not_eligible {node : Node}
    (h : ∀ metadata, unmarshalNodeMetadata node.nodeMeta = .ok metadata →
      eligible metadata = false) (answers : RaftAnswers) :
  ∃ joined ⊆ s.joined, join s node answers = { s with joined := joined }
  := by
  rw [join, notifyJoin]
  cases hmeta : unmarshalNodeMetadata node.nodeMeta with
  | error e =>
    use s.joined, subset_rfl
    simp
  | ok metadata =>
    have hnot := h metadata hmeta
    use s.joined.erase metadata.nodeID, Finset.erase_subset _ _
    rw [eligible, decide_eq_false_iff_not] at hnot
    simp [eligible, hnot]

/-- Of its own join nothing is made. -/
theorem join_of_own {node : Node} {metadata : NodeMetadata}
    (hmeta : unmarshalNodeMetadata node.nodeMeta = .ok metadata)
    (heligible : eligible metadata = true) (hown : own s.member.delegate node = true)
    (answers : RaftAnswers) :
  join s node answers = { s with joined := insert metadata.nodeID s.joined }
  := by
  rw [join, hmeta, notifyJoin, if_pos (of_decide_eq_true hown)]
  simp [heligible, hown]

/-- Any other peer is added. -/
theorem join_of_other {node : Node} {metadata : NodeMetadata}
    (hmeta : unmarshalNodeMetadata node.nodeMeta = .ok metadata)
    (heligible : eligible metadata = true) (hown : own s.member.delegate node = false)
    (answers : RaftAnswers) :
  join s node answers
    = ⟨addRaftPeer s.member metadata.nodeID metadata.raftAddress answers,
      insert metadata.nodeID s.joined,
      if s.member.raft.leader && (answers.addVoter metadata.nodeID).applied then
        insert metadata.nodeID s.added
      else s.added⟩
  := by
  have hpeer := of_decide_eq_true heligible
  rw [join, hmeta, notifyJoin, if_neg (of_decide_eq_false hown), hmeta]
  simp [heligible, hown, hpeer]

/-- A join that is acted upon adds the peer or keeps it. -/
theorem remembered_addRaftPeer_iff (hsound : Sound s) (hs : Remembered s)
    (nodeID raftAddress : String) (answers : RaftAnswers) :
  Remembered ⟨addRaftPeer s.member nodeID raftAddress answers, insert nodeID s.joined,
      if s.member.raft.leader && (answers.addVoter nodeID).applied then insert nodeID s.added
      else s.added⟩ ↔
    s.Voter nodeID ∨ nodeID ∈ s.member.delegate.keptIDs ∨
      (s.member.raft.leader = true → (answers.addVoter nodeID).applied = true)
  := by
  have hmgr := hsound.hasRaftMgr
  have hsound' : Sound ⟨addRaftPeer s.member nodeID raftAddress answers, insert nodeID s.joined,
      if s.member.raft.leader && (answers.addVoter nodeID).applied then insert nodeID s.added
      else s.added⟩ :=
    ⟨by rw [hasRaftMgr_addRaftPeer, hmgr], nodup_keptIDs_addRaftPeer hsound.nodup⟩
  rw [remembered_insert_iff hs hsound' rfl]
  · rw [State.Voter, State.Voter, mem_ids_addRaftPeer hmgr, mem_keptIDs_addRaftPeer hmgr]
    cases hleader : s.member.raft.leader with
    | false => simp
    | true =>
      cases happlied : (answers.addVoter nodeID).applied with
      | false => simp
      | true => simp
  · rintro j ⟨hadded, hvoter⟩
    constructor
    · dsimp only
      split_ifs
      · apply Finset.mem_insert_of_mem hadded
      · apply hadded
    · apply (mem_ids_addRaftPeer hmgr).mpr (Or.inl hvoter)
  · intro j hj
    apply (mem_keptIDs_addRaftPeer hmgr).mpr (Or.inl hj)

theorem join_spec (hsound : Sound s) (node : Node) (answers : RaftAnswers) :
  Sound (join s node answers) ∧
    (Remembered s → (Remembered (join s node answers) ↔ Safe s (.join node answers)))
  := by
  by_cases heligible : ∃ metadata, unmarshalNodeMetadata node.nodeMeta = .ok metadata ∧
      eligible metadata = true
  · obtain ⟨metadata, hmeta, heligible⟩ := heligible
    rw [Safe, hmeta]
    dsimp only
    simp only [heligible, forall_true_left]
    cases hown : own s.member.delegate node with
    | true =>
      have hjoin := join_of_own hmeta heligible hown answers
      have hsound' : Sound { s with joined := insert metadata.nodeID s.joined } :=
        ⟨hsound.hasRaftMgr, hsound.nodup⟩
      rw [hjoin]
      use hsound'
      intro hs
      rw [remembered_insert_iff hs hsound' rfl (fun j => id) (fun j => id)]
      simp only [Bool.true_eq_false, false_and, or_false]
      rfl
    | false =>
      rw [join_of_other hmeta heligible hown]
      use ⟨by rw [hasRaftMgr_addRaftPeer, hsound.hasRaftMgr],
        nodup_keptIDs_addRaftPeer hsound.nodup⟩
      intro hs
      rw [remembered_addRaftPeer_iff hsound hs]
      simp only [true_and]
  · have hnot : ∀ metadata, unmarshalNodeMetadata node.nodeMeta = .ok metadata →
        eligible metadata = false := by
      intro metadata hmeta
      apply Bool.eq_false_of_not_eq_true
      intro h
      apply heligible ⟨metadata, hmeta, h⟩
    obtain ⟨joined, hjoined, hjoin⟩ := join_of_not_eligible (s := s) hnot answers
    rw [hjoin]
    have hsound' : Sound { s with joined := joined } := ⟨hsound.hasRaftMgr, hsound.nodup⟩
    use hsound'
    intro hs
    apply iff_of_true
    · apply remembered_of_subset hs hsound' hjoined (fun j _ => id) rfl
    · rw [Safe]
      split
      · trivial
      · rename_i metadata hmeta
        intro h
        rw [hnot metadata hmeta] at h
        cases h

/-- A leave of a node that is not recovered from leaves the other voters. -/
theorem mem_ids_removeRaftPeer {n : Member} {x : String} {answers : RaftAnswers}
    (h : handleEmergencyRecovery n x answers = none) {j : String} (hj : j ≠ x)
    (hvoter : j ∈ n.raft.configuration.ids) :
  j ∈ (removeRaftPeer n x answers).raft.configuration.ids
  := by
  rw [removeRaftPeer, h, Option.none_or, handleNonLeaderRemoval]
  split_ifs with hmgr hleader
  · apply hvoter
  · apply (RaftState.mem_ids_removeServer_iff hleader).mpr
    exact ⟨hvoter, fun hremoved => hj hremoved.1⟩
  · apply hvoter

/-- A leave changes nothing about the peers kept. -/
theorem removeRaftPeer_frame (n : Member) (x : String) (answers : RaftAnswers) :
  (removeRaftPeer n x answers).delegate.keptIDs = n.delegate.keptIDs ∧
    (removeRaftPeer n x answers).delegate.hasRaftMgr = n.delegate.hasRaftMgr
  := by
  rw [removeRaftPeer]
  split_ifs with hmgr
  · exact ⟨rfl, rfl⟩
  · cases hrecovered : handleEmergencyRecovery n x answers with
    | some m =>
      rw [Option.some_or, Option.getD_some, (TwoNodes.recovered_cases hrecovered).1]
      exact ⟨rfl, rfl⟩
    | none =>
      rw [Option.none_or, handleNonLeaderRemoval]
      split_ifs
      · exact ⟨rfl, rfl⟩
      · exact ⟨rfl, rfl⟩

/-- When a peer leaves, the others are remembered exactly if none of them is dropped because an
outsider leaves. -/
theorem remembered_removeRaftPeer_iff (hsound : Sound s) (hs : Remembered s) (x : String)
    (answers : RaftAnswers) :
  Remembered { s with
      member := removeRaftPeer s.member x answers
      joined := s.joined.erase x } ↔
    (OutsiderLeaves s.member x answers → ∀ j ∈ s.joined, j ≠ x →
      j ∈ s.member.delegate.keptIDs ∨
        s.member.raft.configuration.ids.find? (fun k =>
          getSurvivingNodeAddress s.member.delegate k ≠ "") = some j)
  := by
  obtain ⟨hkept, hmgr⟩ := removeRaftPeer_frame s.member x answers
  have hsound' : Sound { s with
      member := removeRaftPeer s.member x answers
      joined := s.joined.erase x } :=
    ⟨by rw [hmgr, hsound.hasRaftMgr], by rw [hkept]; exact hsound.nodup⟩
  cases hrecovered : handleEmergencyRecovery s.member x answers with
  | none =>
    apply iff_of_true
    · apply remembered_of_subset hs hsound' (Finset.erase_subset _ _) _ hkept
      rintro j hj ⟨hadded, hvoter⟩
      use hadded
      apply mem_ids_removeRaftPeer hrecovered (Finset.ne_of_mem_erase hj) hvoter
    · intro houtsider
      rw [handleEmergencyRecovery_eq hsound.hasRaftMgr, Option.map_eq_none_iff] at hrecovered
      obtain ⟨k, hcall, -⟩ := recoveryCall_of_outsiderLeaves houtsider
      rw [hrecovered] at hcall
      cases hcall
  | some m =>
    have hmember : removeRaftPeer s.member x answers = m := by
      rw [removeRaftPeer, if_neg (by simp [hsound.hasRaftMgr]), hrecovered]
      rfl
    rw [handleEmergencyRecovery_eq hsound.hasRaftMgr] at hrecovered
    obtain ⟨⟨k, a⟩, hcall, rfl⟩ := Option.map_eq_some_iff.mp hrecovered
    -- the node recovered is the only voter
    have hiff : Remembered { s with
        member := removeRaftPeer s.member x answers
        joined := s.joined.erase x } ↔
        ∀ j ∈ s.joined, j ≠ x → j ∈ s.member.delegate.keptIDs ∨ j = k := by
      rw [Remembered, and_iff_left hsound'.nodup]
      constructor
      · intro hall j hj hne
        rcases hall j (Finset.mem_erase.mpr ⟨hne, hj⟩) with hvoter | hj
        · right
          have honly := hvoter.2
          rw [hmember] at honly
          apply List.mem_singleton.mp honly
        · rw [hkept] at hj
          apply Or.inl hj
      · intro hall j hj
        obtain ⟨hne, hj⟩ := Finset.mem_erase.mp hj
        rw [hkept]
        rcases hall j hj hne with hj' | rfl
        · apply Or.inr hj'
        · apply (hs.1 j hj).imp_left
          intro hvoter
          use hvoter.1
          rw [hmember]
          apply List.mem_singleton_self
    rw [hiff]
    by_cases houtsider : OutsiderLeaves s.member x answers
    · obtain ⟨k', hcall', hfound⟩ := recoveryCall_of_outsiderLeaves houtsider
      rw [hcall] at hcall'
      obtain rfl : k = k' := congrArg Prod.fst (Option.some.inj hcall')
      simp only [houtsider, forall_true_left, hfound, Option.some_inj, eq_comm]
    · apply iff_of_true
      · intro j hj hne
        rcases hs.1 j hj with hvoter | hj
        · right
          apply ((mem_ids_of_recoveryCall houtsider hcall j).mp hvoter.2).resolve_right hne
        · apply Or.inl hj
      · intro h
        apply absurd h houtsider

/-- A leave that says nothing, is not that of a peer, or comes in a shutdown, leaves the node as
it is. -/
theorem leave_of_not_heard {node : Node}
    (h : ¬ (s.member.delegate.shutdownFlag = false ∧
      ∃ metadata, unmarshalNodeMetadata node.nodeMeta = .ok metadata ∧
        metadata.role = peerRole)) (answers : RaftAnswers) :
  ∃ joined ⊆ s.joined, leave s node answers = { s with joined := joined }
  := by
  rw [leave, notifyLeave]
  cases hmeta : unmarshalNodeMetadata node.nodeMeta with
  | error e =>
    use s.joined, subset_rfl
    simp
  | ok metadata =>
    use s.joined.erase metadata.nodeID, Finset.erase_subset _ _
    cases hshutdown : s.member.delegate.shutdownFlag with
    | true => simp
    | false =>
      have hrole : metadata.role ≠ peerRole := fun hrole => h ⟨hshutdown, metadata, hmeta, hrole⟩
      simp [hrole]

/-- In a shutdown no address is found. -/
theorem not_outsiderLeaves_of_shutdown {n : Member} (h : n.delegate.shutdownFlag = true)
    {x : String} {answers : RaftAnswers} :
  ¬ OutsiderLeaves n x answers
  := by
  have hnone : ∀ j, getSurvivingNodeAddress n.delegate j = "" := by
    intro j
    rw [getSurvivingNodeAddress, h]
    cases n.delegate.members <;> rfl
  rintro ⟨-, -, -, -, s, hfound, -⟩
  have haddress := List.find?_some hfound
  rw [hnone s] at haddress
  cases haddress

theorem leave_spec (hsound : Sound s) (node : Node) (answers : RaftAnswers) :
  Sound (leave s node answers) ∧
    (Remembered s → (Remembered (leave s node answers) ↔ Safe s (.leave node answers)))
  := by
  by_cases hpeer : s.member.delegate.shutdownFlag = false ∧
      ∃ metadata, unmarshalNodeMetadata node.nodeMeta = .ok metadata ∧ metadata.role = peerRole
  · obtain ⟨hrunning, metadata, hmeta, hrole⟩ := hpeer
    obtain ⟨hkept, hmgr⟩ := removeRaftPeer_frame s.member metadata.nodeID answers
    have hleave : leave s node answers
        = { s with
            member := removeRaftPeer s.member metadata.nodeID answers
            joined := s.joined.erase metadata.nodeID } := by
      simp [leave, notifyLeave, hrunning, hmeta, hrole]
    rw [hleave, Safe, hmeta]
    constructor
    · exact ⟨hmgr.trans hsound.hasRaftMgr, hkept ▸ hsound.nodup⟩
    · intro hs
      rw [remembered_removeRaftPeer_iff hsound hs]
      simp only [hrole, forall_true_left]
  · obtain ⟨joined, hjoined, hleave⟩ := leave_of_not_heard hpeer answers
    have hsound' : Sound { s with joined := joined } := ⟨hsound.hasRaftMgr, hsound.nodup⟩
    rw [hleave]
    use hsound'
    intro hs
    apply iff_of_true
    · apply remembered_of_subset hs hsound' hjoined (fun j _ => id) rfl
    · rw [Safe]
      split
      · trivial
      · rename_i metadata hmeta
        intro hrole houtsider
        apply absurd houtsider
        apply not_outsiderLeaves_of_shutdown
        apply Bool.eq_true_of_not_eq_false
        intro hrunning
        apply hpeer ⟨hrunning, metadata, hmeta, hrole⟩

/-- Processing as leader adds the peers kept and removes what is to be removed, one after the
other. -/
theorem voter_process_iff (hsound : Sound s) (hleader : s.member.raft.leader = true)
    {order : List String} (hnodup : order.Nodup) (answers : RaftAnswers) {j : String} :
  (process s order answers).Voter j ↔
    (s.Voter j ∨ j ∈ addable s.member.delegate answers) ∧
      ¬ RemovedInTurn (fun i => (answers.removeServer i).applied) order
        (votersAdded s.member answers) j
  := by
  have hids : ∀ k, k ∈ (addPending s.member.raft answers
      s.member.delegate.pendingPeers).configuration.ids ↔ k ∈ votersAdded s.member answers := by
    intro k
    rw [mem_ids_addPending hleader, votersAdded, List.mem_append, or_comm]
    apply or_congr_right
    simp only [RaftDelegate.keptIDs, List.mem_filter, List.mem_map]
    constructor
    · rintro ⟨p, hp, happlied, rfl⟩
      exact ⟨⟨p, hp, rfl⟩, happlied⟩
    · rintro ⟨⟨p, hp, rfl⟩, happlied⟩
      exact ⟨p, hp, happlied, rfl⟩
  have hremoved : RemovedInTurn (fun i => (answers.removeServer i).applied) order
      (addPending s.member.raft answers s.member.delegate.pendingPeers).configuration.ids j ↔
      RemovedInTurn (fun i => (answers.removeServer i).applied) order
        (votersAdded s.member answers) j := by
    simp only [RemovedInTurn, hids]
  have hraft : (process s order answers).member.raft
      = removePending (addPending s.member.raft answers s.member.delegate.pendingPeers) answers
          order := by
    simp [process, processPendingPeers, hsound.hasRaftMgr, hleader]
  have hadded : (process s order answers).added
      = s.added ∪ addable s.member.delegate answers := by
    simp [process, hleader]
  rw [State.Voter, hraft, hadded,
    mem_ids_removePending (by rw [leader_addPending, hleader]) hnodup, hremoved, hids,
    ← and_assoc]
  apply and_congr_left
  intro _
  rw [State.Voter, addable, votersAdded]
  simp only [Finset.mem_union, List.mem_toFinset, List.mem_append]
  tauto

theorem process_spec (hsound : Sound s) {order : List String}
    (horder : order.Perm s.member.delegate.pendingRemovals.keys) (answers : RaftAnswers) :
  Sound (process s order answers) ∧
    (Remembered s → (Remembered (process s order answers) ↔ Safe s (.process order answers)))
  := by
  cases hleader : s.member.raft.leader with
  | false =>
    have hsame : process s order answers = s := by
      simp [process, processPendingPeers, hleader]
    rw [hsame, Safe, hleader]
    use hsound
    intro hs
    apply iff_of_true hs
    rintro ⟨⟩
  | true =>
    have hnodup : order.Nodup := horder.nodup_iff.mpr s.member.delegate.pendingRemovals.nodupKeys
    have hkept : (process s order answers).member.delegate.keptIDs = [] := by
      simp [process, processPendingPeers, hsound.hasRaftMgr, hleader, RaftDelegate.keptIDs]
    have hmgr : (process s order answers).member.delegate.hasRaftMgr = true := by
      simp [process, processPendingPeers, hsound.hasRaftMgr, hleader]
    constructor
    · exact ⟨hmgr, hkept ▸ List.nodup_nil⟩
    · intro _
      rw [Remembered, Safe, hkept, and_iff_left List.nodup_nil]
      simp only [hleader, forall_true_left, List.not_mem_nil, or_false,
        voter_process_iff hsound hleader hnodup]
      rfl

end

/-- The start: nothing is kept, and no join was notified of. -/
structure Fresh (n : Member) : Prop where
  hasRaftMgr : n.delegate.hasRaftMgr = true
  kept : n.delegate.pendingPeers = []

/-- Along every run, each peer whose last event is a join is a voter that was added or is kept,
and at most one entry is kept of a node, exactly if all events are safe. -/
theorem remembered_iff {n : Member} (h : Fresh n) (added : Finset String)
    (actions : List MemberAction) :
  machine.Always Remembered ⟨n, ∅, added⟩ actions ↔ machine.Meets Safe ⟨n, ∅, added⟩ actions
  := by
  have hstep : ∀ s a t, Sound s → machine.step s a = some t →
      Sound t ∧ (Remembered s → (Remembered t ↔ Safe s a)) := by
    intro s a t hs ht
    cases a with
    | join node answers =>
      obtain rfl := Option.some.inj ht
      apply join_spec hs
    | leave node answers =>
      obtain rfl := Option.some.inj ht
      apply leave_spec hs
    | process order answers =>
      obtain ⟨horder, ⟨⟩⟩ := Option.ite_none_right_eq_some.mp ht
      apply process_spec hs horder
    | leadership leader =>
      obtain rfl := Option.some.inj ht
      exact ⟨⟨hs.hasRaftMgr, hs.nodup⟩, fun hremembered => iff_of_true hremembered trivial⟩
    | members members =>
      obtain rfl := Option.some.inj ht
      exact ⟨⟨hs.hasRaftMgr, hs.nodup⟩, fun hremembered => iff_of_true hremembered trivial⟩
    | shutdown =>
      obtain rfl := Option.some.inj ht
      exact ⟨⟨hs.hasRaftMgr, hs.nodup⟩, fun hremembered => iff_of_true hremembered trivial⟩
  have hnodup : n.delegate.keptIDs.Nodup := by
    rw [RaftDelegate.keptIDs, h.kept]
    apply List.nodup_nil
  apply Machine.always_iff_meets (J := Sound)
  · intro s a t hs ht
    apply (hstep s a t hs ht).1
  · intro s a t hs hremembered ht
    apply (hstep s a t hs ht).2 hremembered
  · exact ⟨h.hasRaftMgr, hnodup⟩
  · use fun j hj => absurd hj (Finset.notMem_empty j)

/-! ### A peer that cannot be added -/

/-- The answer of the Raft library to a leader that loses its majority. -/
def failing : RaftAnswers where
  getConfiguration := none
  addVoter _ := ⟨false, some (.library "raft")⟩
  removeServer _ := ⟨false, some (.library "raft")⟩

/-- The only voter, without anything kept. -/
def onlyVoter : Member where
  delegate := ⟨true, none, [], ∅, "n1", false⟩
  raft := ⟨⟨[⟨"n1", "10.0.0.1:9000"⟩], by decide⟩, false⟩

def secondNode : Node := ⟨"n2", .metadata ⟨"n2", "10.0.0.2:9000", "peer"⟩⟩

/-- A peer joins while the node is a follower, and is kept.  When the node has become leader,
adding the peer fails, and nothing is left of it. -/
theorem peer_forgotten :
  ∃ s, machine.run ⟨onlyVoter, ∅, ∅⟩
      [.join secondNode Convergence.succeeding, .leadership true, .process [] failing] = some s ∧
    "n2" ∈ s.joined ∧ s.member.raft.configuration.ids = ["n1"] ∧
    s.member.delegate.pendingPeers = []
  := by
  refine ⟨_, rfl, ?_, ?_, ?_⟩
  · decide +kernel
  · decide +kernel
  · decide +kernel

/-- If adding the peer succeeds, it is remembered. -/
theorem peer_remembered :
  machine.Always Remembered ⟨onlyVoter, ∅, ∅⟩
    [.join secondNode Convergence.succeeding, .leadership true,
      .process [] Convergence.succeeding]
  := by
  apply (remembered_iff ⟨rfl, rfl⟩ _ _).mpr
  rintro s ⟨⟩
  refine ⟨fun _ => Or.inr (Or.inr ⟨by decide +kernel, fun h => nomatch h⟩), ?_⟩
  rintro s ⟨⟩
  refine ⟨trivial, ?_⟩
  rintro s -
  refine ⟨fun _ j hj => ⟨Or.inr ?_, fun hremoved => nomatch hremoved.1⟩, trivial⟩
  revert j
  decide +kernel

end Discovered

end Cluster

end VmProxyAuth
