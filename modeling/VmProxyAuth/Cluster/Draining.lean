import VmProxyAuth.Cluster.Discovered

/-!
# Draining what is kept

The service looks at intervals whether its node is leader, and has the delegate process what it
kept when the node was no leader the last time.  So nothing is processed if leadership is lost
and regained between two looks.  `drained_iff` says that a leader is rid of what it kept before
a look exactly if no look finds something kept although the node was leader the last time.

A notification asks whether the node is leader before it keeps anything, and the calls of
`ProcessPendingPeers` ask before they empty the two collections; what happens in between is
left open, up to the lock of the delegate.
-/

namespace VmProxyAuth

namespace Cluster

/-- `checkLeadershipChange`: whether the node counts as leader from now on, and whether what was
kept is to be processed. -/
def checkLeadershipChange (isLeader wasLeader : Bool) : Bool × Bool :=
  if isLeader && !wasLeader then (true, true)
  else if !isLeader && wasLeader then (false, false)
  else (wasLeader, false)

/-! ### Notifications in two steps -/

/-- The peer that a join is to keep, if it does: a new one, when the node is not leader. -/
def keptPeer (n : Member) (node : Node) : Option PendingPeer :=
  match unmarshalNodeMetadata node.nodeMeta with
  | .error _ => none
  | .ok metadata =>
    if ¬ (n.delegate.localNodeName ≠ "" ∧ n.delegate.localNodeName = node.name) ∧
        (metadata.role = peerRole ∧ metadata.raftAddress ≠ "") ∧
        n.delegate.hasRaftMgr = true ∧ n.raft.leader = false ∧
        n.delegate.pendingPeers.any (fun p => p.nodeID == metadata.nodeID) = false then
      some ⟨metadata.nodeID, metadata.raftAddress⟩
    else none

/-- The step in which a peer is kept. -/
def keepPeer (n : Member) (p : PendingPeer) : Member :=
  { n with delegate := { n.delegate with pendingPeers := n.delegate.pendingPeers ++ [p] } }

/-- A join that keeps a peer does nothing else. -/
theorem notifyJoin_of_keptPeer {n : Member} {node : Node} {answers : RaftAnswers}
    {p : PendingPeer} (h : keptPeer n node = some p) :
  notifyJoin n node answers = keepPeer n p
  := by
  rw [keptPeer] at h
  split at h
  · cases h
  · rename_i metadata hmeta
    obtain ⟨⟨hother, hpeer, hmgr, hleader, hnew⟩, ⟨⟩⟩ := Option.ite_none_right_eq_some.mp h
    rw [notifyJoin, if_neg hother, hmeta]
    simp [hpeer, addRaftPeer, hmgr, hleader, hnew, keepPeer]

/-- The removal that a leave is to keep, if it does: the node of a peer, when there is no recovery
and the node is not leader. -/
def keptRemoval (n : Member) (node : Node) (answers : RaftAnswers) : Option String :=
  match unmarshalNodeMetadata node.nodeMeta with
  | .error _ => none
  | .ok metadata =>
    if n.delegate.shutdownFlag = false ∧ metadata.role = peerRole ∧
        n.delegate.hasRaftMgr = true ∧
        handleEmergencyRecovery n metadata.nodeID answers = none ∧ n.raft.leader = false then
      some metadata.nodeID
    else none

/-- The step in which a removal is kept. -/
def keepRemoval (n : Member) (nodeID : String) : Member :=
  { n with
    delegate := { n.delegate with
                  pendingRemovals := n.delegate.pendingRemovals.insert nodeID true } }

/-- A leave that keeps a removal does nothing else. -/
theorem notifyLeave_of_keptRemoval {n : Member} {node : Node} {answers : RaftAnswers}
    {nodeID : String} (h : keptRemoval n node answers = some nodeID) :
  notifyLeave n node answers = keepRemoval n nodeID
  := by
  rw [keptRemoval] at h
  split at h
  · cases h
  · rename_i metadata hmeta
    obtain ⟨⟨hrunning, hrole, hmgr, hrecovery, hleader⟩, ⟨⟩⟩ :=
      Option.ite_none_right_eq_some.mp h
    simp [notifyLeave, hrunning, hmeta, hrole, removeRaftPeer, hmgr, hrecovery,
      handleNonLeaderRemoval, hleader, keepRemoval]

/-! ### The processing in three steps -/

/-- Whether `ProcessPendingPeers` goes on. -/
def processes (n : Member) : Bool := n.delegate.hasRaftMgr && n.raft.leader

/-- The peers that were kept are added. -/
def addKept (n : Member) (answers : RaftAnswers) : Member where
  delegate := { n.delegate with pendingPeers := [] }
  raft := addPending n.raft answers n.delegate.pendingPeers

/-- The servers whose removal was kept are removed, in the given order. -/
def removeKept (n : Member) (order : List String) (answers : RaftAnswers) : Member where
  delegate := { n.delegate with pendingRemovals := ∅ }
  raft := removePending n.raft answers order

/-- Without anything in between, the steps are `ProcessPendingPeers`. -/
theorem processPendingPeers_eq (n : Member) (order : List String) (answers : RaftAnswers) :
  processPendingPeers n order answers =
    if processes n then removeKept (addKept n answers) order answers else n
  := by
  rw [processPendingPeers, processes]
  cases n.delegate.hasRaftMgr <;> cases n.raft.leader <;> rfl

namespace Draining

/-- A look at which the node was leader: the processing it started, if it did, and the entries
kept before it that have been kept since. -/
structure Tick where
  process : Option ℕ
  peers : List PendingPeer
  removals : List String

/-- What is left of the entries. -/
def Tick.hold (t : Tick) (d : RaftDelegate) : Tick :=
  { t with
    peers := t.peers.filter (fun p => p ∈ d.pendingPeers)
    removals := t.removals.filter (fun k => k ∈ d.pendingRemovals.keys) }

/-- Who has locked the delegate: a join that is to keep a peer, or a call of
`ProcessPendingPeers` before or after it has emptied the peers. -/
inductive Holder where
  | join (p : PendingPeer)
  | adding (i : ℕ)
  | removing (i : ℕ)

/-- The node and what the service knows of its leadership; who has locked the delegate; the number
of calls of `ProcessPendingPeers` started, and those that are not done; the removals that are
about to be kept; and the looks since which the node has been leader throughout. -/
structure State where
  member : Member
  wasLeader : Bool
  mu : Option Holder
  started : ℕ
  processing : List ℕ
  leaving : List String
  ticks : List Tick

/-- A notification, a peer or a removal that is kept, a change of leadership or of the member
list, a look, or a step of a call of `ProcessPendingPeers`. -/
inductive Action where
  | join (node : Node) (answers : RaftAnswers)
  | keepPeer
  | leave (node : Node) (answers : RaftAnswers)
  | keepRemoval (nodeID : String)
  | setLeader (leader : Bool)
  | setMembers (members : Option (List Node))
  | tick
  | process (i : ℕ)
  | addKept (answers : RaftAnswers)
  | removeKept (order : List String) (answers : RaftAnswers)

/-- The state after a change of the node. -/
def State.update (s : State) (n : Member) : State :=
  { s with
    member := n
    ticks := s.ticks.map (fun t => t.hold n.delegate) }

/-- The state after a look. -/
def State.look (s : State) : State :=
  if (checkLeadershipChange s.member.raft.leader s.wasLeader).2 then
    { s with
      wasLeader := (checkLeadershipChange s.member.raft.leader s.wasLeader).1
      started := s.started + 1
      processing := s.processing ++ [s.started]
      ticks := s.ticks ++ [⟨some s.started, s.member.delegate.pendingPeers,
        s.member.delegate.pendingRemovals.keys⟩] }
  else
    { s with
      wasLeader := (checkLeadershipChange s.member.raft.leader s.wasLeader).1
      ticks :=
        if s.member.raft.leader then
          s.ticks ++ [⟨none, s.member.delegate.pendingPeers,
            s.member.delegate.pendingRemovals.keys⟩]
        else s.ticks }

/-- One step. -/
def step (s : State) : Action → Option State
  | .join node answers =>
    if s.mu.isSome then none
    else
      match keptPeer s.member node with
      | some p => some { s with mu := some (.join p) }
      | none => some (s.update (notifyJoin s.member node answers))
  | .keepPeer =>
    match s.mu with
    | some (.join p) => some { s.update (keepPeer s.member p) with mu := none }
    | _ => none
  | .leave node answers =>
    match keptRemoval s.member node answers with
    | some nodeID => some { s with leaving := s.leaving ++ [nodeID] }
    | none => some (s.update (notifyLeave s.member node answers))
  | .keepRemoval nodeID =>
    if s.mu.isNone ∧ nodeID ∈ s.leaving then
      some { s.update (keepRemoval s.member nodeID) with leaving := s.leaving.erase nodeID }
    else none
  | .setLeader leader =>
    some { s with
           member := { s.member with raft := { s.member.raft with leader := leader } }
           ticks := if leader then s.ticks else [] }
  | .setMembers members =>
    some (s.update { s.member with delegate := { s.member.delegate with members := members } })
  | .tick => some s.look
  | .process i =>
    if s.mu.isNone ∧ i ∈ s.processing then
      if processes s.member then some { s with mu := some (.adding i) }
      else some { s with processing := s.processing.erase i }
    else none
  | .addKept answers =>
    match s.mu with
    | some (.adding i) => some { s.update (addKept s.member answers) with mu := some (.removing i) }
    | _ => none
  | .removeKept order answers =>
    match s.mu with
    | some (.removing i) =>
      if order.Perm s.member.delegate.pendingRemovals.keys then
        some { s.update (removeKept s.member order answers) with
               mu := none, processing := s.processing.erase i }
      else none
    | _ => none

/-- The machine of one node. -/
def machine : Machine State Action := ⟨step⟩

/-- The start of the service. -/
def start (n : Member) : State := ⟨n, false, none, 0, [], [], []⟩

/-- After every look since which the node has been leader, once the processing it started is
done, no entry from before it is left. -/
def Drained (s : State) : Prop :=
  ∀ t ∈ s.ticks, (∀ i, t.process = some i → i ∉ s.processing) → t.peers = [] ∧ t.removals = []

/-- A look at which the node is leader as it was the last time finds nothing kept. -/
def FindsNothing (s : State) : Action → Prop
  | .tick => s.member.raft.leader = true → s.wasLeader = true →
      s.member.delegate.pendingPeers = [] ∧ s.member.delegate.pendingRemovals.keys = []
  | _ => True

instance (s : State) : ∀ a, Decidable (FindsNothing s a)
  | .tick => inferInstanceAs (Decidable (_ → _ → _))
  | .join _ _ => isTrue trivial
  | .keepPeer => isTrue trivial
  | .leave _ _ => isTrue trivial
  | .keepRemoval _ => isTrue trivial
  | .setLeader _ => isTrue trivial
  | .setMembers _ => isTrue trivial
  | .process _ => isTrue trivial
  | .addKept _ => isTrue trivial
  | .removeKept _ _ => isTrue trivial

/-- What holds of every state: there is a Raft manager; the node has been leader since a look;
and no peer is kept while removals are processed. -/
structure Sound (s : State) : Prop where
  hasRaftMgr : s.member.delegate.hasRaftMgr = true
  leader : s.ticks ≠ [] → s.member.raft.leader = true
  pendingPeers : ∀ i, s.mu = some (.removing i) → s.member.delegate.pendingPeers = []

/-! ### What the events leave as it is -/

/-- Two states of a node with the same leadership and Raft manager. -/
def SameRole (n m : Member) : Prop :=
  m.raft.leader = n.raft.leader ∧ m.delegate.hasRaftMgr = n.delegate.hasRaftMgr

theorem sameRole_notifyJoin (n : Member) (node : Node) (answers : RaftAnswers) :
  SameRole n (notifyJoin n node answers)
  := by
  have hadd : ∀ nodeID raftAddress, SameRole n (addRaftPeer n nodeID raftAddress answers) := by
    intro nodeID raftAddress
    refine ⟨?_, hasRaftMgr_addRaftPeer⟩
    rw [addRaftPeer]
    split_ifs
    · rfl
    · apply RaftState.leader_addVoter
    · rfl
    · rfl
  rw [notifyJoin]
  split
  · exact ⟨rfl, rfl⟩
  · split
    · exact ⟨rfl, rfl⟩
    · split
      · apply hadd
      · exact ⟨rfl, rfl⟩

/-- A leave changes neither the role nor the peers kept. -/
theorem sameRole_notifyLeave (n : Member) (node : Node) (answers : RaftAnswers) :
  SameRole n (notifyLeave n node answers) ∧
    (notifyLeave n node answers).delegate.pendingPeers = n.delegate.pendingPeers
  := by
  have hremove : ∀ nodeID, SameRole n (removeRaftPeer n nodeID answers) ∧
      (removeRaftPeer n nodeID answers).delegate.pendingPeers = n.delegate.pendingPeers := by
    intro nodeID
    rw [removeRaftPeer]
    split_ifs with hmgr
    · exact ⟨⟨rfl, rfl⟩, rfl⟩
    · rw [Bool.not_eq_true', Bool.not_eq_false] at hmgr
      rw [handleEmergencyRecovery_eq hmgr, handleNonLeaderRemoval]
      cases recoveryCall n nodeID answers with
      | some call => exact ⟨⟨rfl, rfl⟩, rfl⟩
      | none =>
        split_ifs
        · exact ⟨⟨RaftState.leader_removeServer _ _ _, rfl⟩, rfl⟩
        · exact ⟨⟨rfl, rfl⟩, rfl⟩
  rw [notifyLeave]
  split
  · exact ⟨⟨rfl, rfl⟩, rfl⟩
  · split
    · exact ⟨⟨rfl, rfl⟩, rfl⟩
    · split
      · apply hremove
      · exact ⟨⟨rfl, rfl⟩, rfl⟩

theorem leader_removePending (r : RaftState) (answers : RaftAnswers) (order : List String) :
  (removePending r answers order).leader = r.leader
  := by
  induction order generalizing r with
  | nil => rfl
  | cons k order ih =>
    rw [removePending, List.foldl_cons, ← removePending, ih, RaftState.leader_removeServer]

/-! ### What a step does -/

section

variable {s t : State} {a : Action}

theorem sound_update (hs : Sound s) {n : Member} (h : SameRole s.member n)
    (hpeers : ∀ i, s.mu = some (.removing i) → n.delegate.pendingPeers = []) :
  Sound (s.update n)
  := by
  refine ⟨h.2.trans hs.hasRaftMgr, ?_, hpeers⟩
  intro hticks
  apply h.1.trans (hs.leader _)
  intro hnone
  apply hticks
  rw [State.update, hnone]
  rfl

/-- Entries that are not kept any more do not come back. -/
theorem drained_update (hs : Drained s) (n : Member) :
  Drained (s.update n)
  := by
  intro t ht hdone
  obtain ⟨t, hmem, rfl⟩ := List.mem_map.mp ht
  obtain ⟨hpeers, hremovals⟩ := hs t hmem hdone
  rw [Tick.hold, hpeers, hremovals]
  exact ⟨rfl, rfl⟩

/-- Nothing is left of the entries once both collections are empty. -/
theorem drained_of_empty {n : Member} (hpeers : n.delegate.pendingPeers = [])
    (hremovals : n.delegate.pendingRemovals = ∅) :
  ∀ t ∈ (s.update n).ticks, t.peers = [] ∧ t.removals = []
  := by
  intro t ht
  obtain ⟨t, -, rfl⟩ := List.mem_map.mp ht
  rw [Tick.hold, hpeers, hremovals]
  simp

/-- A look adds itself to those since which the node has been leader, and starts the processing
if the node was no leader the last time. -/
theorem look_spec (s : State) :
  s.look.member = s.member ∧ s.look.mu = s.mu ∧
    ((s.member.raft.leader = false ∧ s.look.ticks = s.ticks ∧ s.look.processing = s.processing) ∨
    (s.member.raft.leader = true ∧ ∃ process,
      s.look.ticks = s.ticks ++ [⟨process, s.member.delegate.pendingPeers,
        s.member.delegate.pendingRemovals.keys⟩] ∧
      ((s.wasLeader = true ∧ process = none ∧ s.look.processing = s.processing) ∨
      (s.wasLeader = false ∧ process = some s.started ∧
        s.look.processing = s.processing ++ [s.started]))))
  := by
  rw [State.look, checkLeadershipChange]
  cases s.member.raft.leader <;> cases s.wasLeader <;> simp

theorem sound_look (hs : Sound s) :
  Sound s.look
  := by
  obtain ⟨hmember, hmu, hticks⟩ := look_spec s
  refine ⟨hmember ▸ hs.hasRaftMgr, ?_, hmember ▸ hmu ▸ hs.pendingPeers⟩
  rw [hmember]
  obtain ⟨-, hticks, -⟩ | ⟨hleader, -⟩ := hticks
  · rw [hticks]
    apply hs.leader
  · intro _
    apply hleader

theorem drained_look_iff (hdrained : Drained s) :
  Drained s.look ↔ FindsNothing s .tick
  := by
  rw [Drained, FindsNothing]
  obtain ⟨-, -, ⟨hleader, hticks, hprocessing⟩ | ⟨hleader, process, hticks, hlast⟩⟩ := look_spec s
  · rw [hticks, hprocessing]
    apply iff_of_true hdrained
    intro h
    cases hleader.symm.trans h
  · rw [hticks, List.forall_mem_append, List.forall_mem_singleton]
    obtain ⟨hwas, rfl, hprocessing⟩ | ⟨hwas, rfl, hprocessing⟩ := hlast
    · rw [hprocessing]
      constructor
      · intro h _ _
        apply h.2
        rintro i ⟨⟩
      · intro h
        exact ⟨hdrained, fun _ => h hleader hwas⟩
    · -- The processing that is started now is not done, and that of an earlier look is done
      -- exactly if it was before.
      rw [hprocessing, hwas]
      apply iff_of_true
      · refine ⟨fun t ht hdone => hdrained t ht fun i hi h => hdone i hi ?_, ?_⟩
        · apply List.mem_append_left _ h
        · intro hdone
          apply absurd _ (hdone s.started rfl)
          simp
      · intro _ h
        cases h

/-- What a step does: it keeps what holds of every state, and if everything was drained, it is so
afterwards exactly if the step is no look that finds something to its surprise. -/
structure Keeps (s : State) (a : Action) (t : State) : Prop where
  sound : Sound t
  drained : Drained s → (Drained t ↔ FindsNothing s a)

theorem Keeps.of_drained (hsound : Sound t) (hdrained : Drained s → Drained t)
    (ha : FindsNothing s a) :
  Keeps s a t
  := by
  use hsound
  intro hs
  apply iff_of_true (hdrained hs) ha

/-! The steps of a join and a leave. -/

theorem keeps_join (hs : Sound s) {node : Node} {answers : RaftAnswers}
    (h : step s (.join node answers) = some t) :
  Keeps s (.join node answers) t
  := by
  rw [step] at h
  split_ifs at h with hmu
  rw [Bool.not_eq_true, Option.isSome_eq_false_iff, Option.isNone_iff_eq_none] at hmu
  split at h
  · obtain rfl := Option.some.inj h
    refine .of_drained ⟨hs.hasRaftMgr, hs.leader, ?_⟩ (fun hdrained => hdrained) trivial
    rintro i ⟨⟩
  · obtain rfl := Option.some.inj h
    refine .of_drained (sound_update hs (sameRole_notifyJoin _ _ _) ?_)
      (fun hdrained => drained_update hdrained _) trivial
    intro i hi
    cases hmu.symm.trans hi

theorem keeps_keepPeer (hs : Sound s) (h : step s .keepPeer = some t) :
  Keeps s .keepPeer t
  := by
  rw [step] at h
  split at h
  · obtain rfl := Option.some.inj h
    rename_i p hmu
    have hrole : SameRole s.member (keepPeer s.member p) := ⟨rfl, rfl⟩
    have hupdate := sound_update hs hrole (fun i hi => nomatch hmu.symm.trans hi)
    refine .of_drained ⟨hupdate.hasRaftMgr, hupdate.leader, ?_⟩
      (fun hdrained => drained_update hdrained _) trivial
    rintro i ⟨⟩
  · cases h

theorem keeps_leave (hs : Sound s) {node : Node} {answers : RaftAnswers}
    (h : step s (.leave node answers) = some t) :
  Keeps s (.leave node answers) t
  := by
  rw [step] at h
  split at h
  · obtain rfl := Option.some.inj h
    exact .of_drained ⟨hs.hasRaftMgr, hs.leader, hs.pendingPeers⟩ (fun hdrained => hdrained) trivial
  · obtain rfl := Option.some.inj h
    obtain ⟨hrole, hpeers⟩ := sameRole_notifyLeave s.member node answers
    refine .of_drained (sound_update hs hrole ?_) (fun hdrained => drained_update hdrained _)
      trivial
    rw [hpeers]
    apply hs.pendingPeers

theorem keeps_keepRemoval (hs : Sound s) {nodeID : String}
    (h : step s (.keepRemoval nodeID) = some t) :
  Keeps s (.keepRemoval nodeID) t
  := by
  obtain ⟨⟨hmu, -⟩, ⟨⟩⟩ := Option.ite_none_right_eq_some.mp h
  have hrole : SameRole s.member (keepRemoval s.member nodeID) := ⟨rfl, rfl⟩
  have hupdate := sound_update hs hrole
    (fun i hi => nomatch (Option.isNone_iff_eq_none.mp hmu).symm.trans hi)
  exact .of_drained ⟨hupdate.hasRaftMgr, hupdate.leader, hupdate.pendingPeers⟩
    (fun hdrained => drained_update hdrained _) trivial

/-! The steps of Raft. -/

theorem keeps_setLeader (hs : Sound s) {leader : Bool} (h : step s (.setLeader leader) = some t) :
  Keeps s (.setLeader leader) t
  := by
  obtain rfl := Option.some.inj h
  cases leader with
  | true =>
    exact .of_drained ⟨hs.hasRaftMgr, fun _ => rfl, hs.pendingPeers⟩ (fun hdrained => hdrained)
      trivial
  | false =>
    exact .of_drained ⟨hs.hasRaftMgr, fun hticks => absurd rfl hticks, hs.pendingPeers⟩
      (fun _ => List.forall_mem_nil _) trivial

/-! The steps of the processing. -/

theorem keeps_process (hs : Sound s) {i : ℕ} (h : step s (.process i) = some t) :
  Keeps s (.process i) t
  := by
  obtain ⟨-, h⟩ := Option.ite_none_right_eq_some.mp h
  split_ifs at h with hprocesses
  · obtain rfl := Option.some.inj h
    refine .of_drained ⟨hs.hasRaftMgr, hs.leader, ?_⟩ (fun hdrained => hdrained) trivial
    rintro j ⟨⟩
  · obtain rfl := Option.some.inj h
    -- The node is not leader, so there is no look to speak of.
    have hnone : s.ticks = [] := by
      by_contra hticks
      apply hprocesses
      rw [processes, hs.hasRaftMgr, hs.leader hticks]
      rfl
    refine .of_drained ⟨hs.hasRaftMgr, hs.leader, hs.pendingPeers⟩ (fun _ => ?_) trivial
    rw [Drained, hnone]
    apply List.forall_mem_nil

theorem keeps_addKept (hs : Sound s) {answers : RaftAnswers}
    (h : step s (.addKept answers) = some t) :
  Keeps s (.addKept answers) t
  := by
  rw [step] at h
  split at h
  · obtain rfl := Option.some.inj h
    have hupdate : Sound (s.update (addKept s.member answers)) :=
      sound_update hs ⟨leader_addPending _ _ _, rfl⟩ (fun _ _ => rfl)
    exact .of_drained ⟨hupdate.hasRaftMgr, hupdate.leader, fun _ _ => rfl⟩
      (fun hdrained => drained_update hdrained _) trivial
  · cases h

theorem keeps_removeKept (hs : Sound s) {order : List String} {answers : RaftAnswers}
    (h : step s (.removeKept order answers) = some t) :
  Keeps s (.removeKept order answers) t
  := by
  rw [step] at h
  split at h
  · rename_i i hmu
    obtain ⟨-, ⟨⟩⟩ := Option.ite_none_right_eq_some.mp h
    have hpeers : (removeKept s.member order answers).delegate.pendingPeers = [] :=
      hs.pendingPeers i hmu
    have hupdate : Sound (s.update (removeKept s.member order answers)) :=
      sound_update hs ⟨leader_removePending _ _ _, rfl⟩ (fun _ _ => hpeers)
    refine .of_drained ⟨hupdate.hasRaftMgr, hupdate.leader, fun _ _ => hpeers⟩ (fun _ => ?_) trivial
    intro t ht _
    apply drained_of_empty hpeers rfl t ht
  · cases h

theorem step_spec (hs : Sound s) (h : machine.step s a = some t) :
  Keeps s a t
  := by
  cases a with
  | join node answers => apply keeps_join hs h
  | keepPeer => apply keeps_keepPeer hs h
  | leave node answers => apply keeps_leave hs h
  | keepRemoval nodeID => apply keeps_keepRemoval hs h
  | setLeader leader => apply keeps_setLeader hs h
  | setMembers members =>
    obtain rfl := Option.some.inj h
    exact .of_drained (sound_update hs ⟨rfl, rfl⟩ hs.pendingPeers)
      (fun hdrained => drained_update hdrained _) trivial
  | tick =>
    obtain rfl := Option.some.inj h
    use sound_look hs, drained_look_iff
  | process i => apply keeps_process hs h
  | addKept answers => apply keeps_addKept hs h
  | removeKept order answers => apply keeps_removeKept hs h

end

/-- Along every run, a leader is rid of what it kept before a look, once the processing the look
started is done, exactly if no look finds something kept although the node was leader the last
time. -/
theorem drained_iff {n : Member} (h : n.delegate.hasRaftMgr = true) (actions : List Action) :
  machine.Always Drained (start n) actions ↔ machine.Meets FindsNothing (start n) actions
  := by
  apply Machine.always_iff_meets (J := Sound)
  · intro s a t hs ht
    apply (step_spec hs ht).sound
  · intro s a t hs hdrained ht
    apply (step_spec hs ht).drained hdrained
  · exact ⟨h, fun hticks => absurd rfl hticks, fun i hi => nomatch hi⟩
  · apply List.forall_mem_nil

/-! ### Leadership regained between two looks -/

/-- The node loses its leadership between two looks, a peer joins, and the node is leader again.
The second look starts nothing, and the peer stays kept. -/
theorem peer_kept_by_leader :
  ∃ s, machine.run (start Discovered.onlyVoter)
      [.setLeader true, .tick, .process 0, .addKept Convergence.succeeding,
        .removeKept [] Convergence.succeeding, .setLeader false,
        .join Discovered.secondNode Convergence.succeeding, .keepPeer,
        .setLeader true, .tick] = some s ∧
    s.member.raft.leader = true ∧ s.processing = [] ∧
    s.ticks.map Tick.peers = [[⟨"n2", "10.0.0.2:9000"⟩]] ∧
    s.member.delegate.pendingPeers = [⟨"n2", "10.0.0.2:9000"⟩]
  := by
  refine ⟨_, rfl, ?_, ?_, ?_, ?_⟩
  · decide +kernel
  · decide +kernel
  · decide +kernel
  · decide +kernel

/-- If a look sees the node without leadership, the peer is processed. -/
theorem peer_drained :
  machine.Always Drained (start Discovered.onlyVoter)
    [.setLeader true, .tick, .process 0, .addKept Convergence.succeeding,
      .removeKept [] Convergence.succeeding, .setLeader false,
      .join Discovered.secondNode Convergence.succeeding, .keepPeer, .tick,
      .setLeader true, .tick, .process 1, .addKept Convergence.succeeding,
      .removeKept [] Convergence.succeeding]
  := (drained_iff rfl _).mpr (by decide +kernel)

end Draining

end Cluster

end VmProxyAuth
