import VmProxyAuth.Domain
import VmProxyAuth.Lib.Configuration
import VmProxyAuth.Lib.GoMap

/-!
# The membership delegate

The delegate of a node is notified of nodes that join and leave, and changes the Raft
configuration of its node: as leader it adds and removes servers, otherwise it keeps them
for the time it becomes leader, and when one of two servers leaves it makes the other one
the only server (`handleEmergencyRecovery`).  What the Raft library answers is given with
each notification.
-/

namespace VmProxyAuth

namespace Cluster

abbrev Server : Type := Servers.Server String String

abbrev Configuration : Type := Servers.Configuration String String

/-! ### The Raft manager -/

/-- What the delegate sees of the Raft node. -/
structure RaftState where
  configuration : Configuration
  leader : Bool

/-- An answer of the Raft library to a change of the configuration.  A change may be applied
although an error is returned, as when leadership is lost before it is committed. -/
structure RaftAnswer where
  applied : Bool
  err : Option GoError

/-- The answers of the Raft library to the calls one notification makes. -/
structure RaftAnswers where
  getConfiguration : Option GoError
  addVoter : String → RaftAnswer
  removeServer : String → RaftAnswer

namespace RaftState

/-- `AddVoter`. -/
def addVoter (r : RaftState) (nodeID address : String) (answer : RaftAnswer) :
    RaftState × Option GoError :=
  if !r.leader then (r, some (.errorf "only leader can add voters" []))
  else
    (if answer.applied then
        { r with configuration := r.configuration.addVoter ⟨nodeID, address⟩ }
      else r,
      answer.err.map (GoError.wrapf "failed to add voter: %w" []))

/-- `RemoveServer`. -/
def removeServer (r : RaftState) (nodeID : String) (answer : RaftAnswer) :
    RaftState × Option GoError :=
  if !r.leader then (r, some (.errorf "only leader can remove servers" []))
  else
    (if answer.applied then
        { r with configuration := (r.configuration.removeServer nodeID).getD r.configuration }
      else r,
      answer.err.map (GoError.wrapf "failed to remove server: %w" []))

/-- `GetPeers`. -/
def getPeers (r : RaftState) (err : Option GoError) : Except GoError (List String) :=
  match err with
  | some e => .error (.wrapf "failed to get raft configuration: %w" [] e)
  | none => .ok r.configuration.ids

/-- `ForceRecoverCluster`: the given server becomes the only one. -/
def forceRecoverCluster (r : RaftState) (nodeID address : String) : RaftState :=
  { r with configuration := Servers.Configuration.single ⟨nodeID, address⟩ }

end RaftState

/-! ### Nodes -/

/-- The metadata of a node the delegate reads. -/
structure NodeMetadata where
  nodeID : String
  raftAddress : String
  role : String
  deriving DecidableEq, Repr

/-- The metadata bytes of a node, by what decoding them gives. -/
inductive NodeMeta where
  | empty
  | malformed
  | metadata (m : NodeMetadata)
  deriving DecidableEq, Repr

/-- `UnmarshalNodeMetadata`. -/
def unmarshalNodeMetadata : NodeMeta → Except GoError NodeMetadata
  | .empty => .error (.errorf "empty metadata" [])
  | .malformed => .error (.wrapf "failed to unmarshal node metadata: %w" [] (.library "json"))
  | .metadata m => .ok m

/-- A node of the member list. -/
structure Node where
  name : String
  nodeMeta : NodeMeta
  deriving DecidableEq, Repr

def peerRole : String := "peer"

/-- `PendingPeer`. -/
structure PendingPeer where
  nodeID : String
  raftAddress : String
  deriving DecidableEq, Repr

/-- `RaftDelegate`, with the members its member list has, if there is one. -/
structure RaftDelegate where
  hasRaftMgr : Bool
  members : Option (List Node)
  pendingPeers : List PendingPeer
  pendingRemovals : GoMap String Bool
  localNodeName : String
  shutdownFlag : Bool

/-- A node: its delegate and its Raft state. -/
structure Member where
  delegate : RaftDelegate
  raft : RaftState

/-! ### Joins -/

/-- `addRaftPeer`. -/
def addRaftPeer (n : Member) (nodeID raftAddress : String) (answers : RaftAnswers) : Member :=
  if !n.delegate.hasRaftMgr then n
  else if n.raft.leader then
    { n with raft := (n.raft.addVoter nodeID raftAddress (answers.addVoter nodeID)).1 }
  else if n.delegate.pendingPeers.any (fun p => p.nodeID == nodeID) then n
  else
    { n with
      delegate := { n.delegate with
                    pendingPeers := n.delegate.pendingPeers ++ [⟨nodeID, raftAddress⟩] } }

/-- `NotifyJoin`. -/
def notifyJoin (n : Member) (node : Node) (answers : RaftAnswers) : Member :=
  if n.delegate.localNodeName ≠ "" ∧ n.delegate.localNodeName = node.name then n
  else
    match unmarshalNodeMetadata node.nodeMeta with
    | .error _ => n
    | .ok metadata =>
      if metadata.role = peerRole ∧ metadata.raftAddress ≠ "" then
        addRaftPeer n metadata.nodeID metadata.raftAddress answers
      else n

/-! ### Leaves -/

/-- `getSurvivingNodeAddress`: the address of a node in the member list, or the empty one. -/
def getSurvivingNodeAddress (d : RaftDelegate) (nodeID : String) : String :=
  match d.members with
  | none => ""
  | some members =>
    if d.shutdownFlag then ""
    else
      (members.findSome? (fun member =>
        match unmarshalNodeMetadata member.nodeMeta with
        | .error _ => none
        | .ok metadata =>
          if metadata.nodeID = nodeID ∧ metadata.raftAddress ≠ "" then some metadata.raftAddress
          else none)).getD ""

/-- `findSurvivingNode`: the first other peer that has an address. -/
def findSurvivingNode (d : RaftDelegate) (failedNodeID : String) : List String → String × String
  | [] => ("", "")
  | peerID :: peers =>
    if peerID = failedNodeID then findSurvivingNode d failedNodeID peers
    else if getSurvivingNodeAddress d peerID ≠ "" then (peerID, getSurvivingNodeAddress d peerID)
    else findSurvivingNode d failedNodeID peers

/-- `handleEmergencyRecovery`: the node after a recovery, if there was one. -/
def handleEmergencyRecovery (n : Member) (nodeID : String) (answers : RaftAnswers) :
    Option Member :=
  match n.raft.getPeers answers.getConfiguration with
  | .error _ => none
  | .ok peers =>
    if peers.length ≠ 2 then none
    else
      let surviving := findSurvivingNode n.delegate nodeID peers
      if surviving.1 = "" ∨ surviving.2 = "" then none
      else some { n with raft := n.raft.forceRecoverCluster surviving.1 surviving.2 }

/-- `handleNonLeaderRemoval`: the node after keeping the removal, if it is not leader. -/
def handleNonLeaderRemoval (n : Member) (nodeID : String) : Option Member :=
  if n.raft.leader then none
  else
    some { n with
           delegate := { n.delegate with
                         pendingRemovals := n.delegate.pendingRemovals.insert nodeID true } }

/-- `performPeerRemoval`. -/
def performPeerRemoval (n : Member) (nodeID : String) (answers : RaftAnswers) : Member :=
  { n with raft := (n.raft.removeServer nodeID (answers.removeServer nodeID)).1 }

/-- `removeRaftPeer`. -/
def removeRaftPeer (n : Member) (nodeID : String) (answers : RaftAnswers) : Member :=
  if !n.delegate.hasRaftMgr then n
  else
    ((handleEmergencyRecovery n nodeID answers).or (handleNonLeaderRemoval n nodeID)).getD
      (performPeerRemoval n nodeID answers)

/-- `NotifyLeave`. -/
def notifyLeave (n : Member) (node : Node) (answers : RaftAnswers) : Member :=
  if n.delegate.shutdownFlag then n
  else
    match unmarshalNodeMetadata node.nodeMeta with
    | .error _ => n
    | .ok metadata =>
      if metadata.role = peerRole then removeRaftPeer n metadata.nodeID answers else n

/-! ### Becoming leader -/

/-- The calls of `AddVoter` for the peers that were kept. -/
def addPending (r : RaftState) (answers : RaftAnswers) (peers : List PendingPeer) : RaftState :=
  peers.foldl (fun r p => (r.addVoter p.nodeID p.raftAddress (answers.addVoter p.nodeID)).1) r

/-- The calls of `RemoveServer` for the removals that were kept, in the order visited. -/
def removePending (r : RaftState) (answers : RaftAnswers) (order : List String) : RaftState :=
  order.foldl (fun r nodeID => (r.removeServer nodeID (answers.removeServer nodeID)).1) r

/-- `ProcessPendingPeers`, the removals visited in the given order. -/
def processPendingPeers (n : Member) (order : List String) (answers : RaftAnswers) : Member :=
  if !n.delegate.hasRaftMgr || !n.raft.leader then n
  else
    { delegate := { n.delegate with pendingPeers := [], pendingRemovals := ∅ }
      raft := removePending (addPending n.raft answers n.delegate.pendingPeers) answers order }

end Cluster

end VmProxyAuth
