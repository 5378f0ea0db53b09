import VmProxyAuth.Cluster.TwoNodes

/-!
# Emergency recovery

When a node leaves a cluster of two voters, the delegate makes the other voter the only one.  It
does not look whether the node that left was a voter: if it was none, the first voter with an
address is kept and the other one, which has not left, is dropped (`dropsOnlyFailed_iff`).
-/

namespace VmProxyAuth

namespace Cluster

open Servers

/-- The surviving node and its address `removeRaftPeer` calls `ForceRecoverCluster` with, if it
does. -/
def recoveryCall (n : Member) (nodeID : String) (answers : RaftAnswers) :
    Option (String × String) :=
  if !n.delegate.hasRaftMgr then none
  else
    match n.raft.getPeers answers.getConfiguration with
    | .error _ => none
    | .ok peers =>
      if peers.length ≠ 2 then none
      else
        let surviving := findSurvivingNode n.delegate nodeID peers
        if surviving.1 = "" ∨ surviving.2 = "" then none else some surviving

/-- The recovery that `removeRaftPeer` makes is the one it calls for. -/
theorem handleEmergencyRecovery_eq {n : Member} (h : n.delegate.hasRaftMgr = true)
    (nodeID : String) (answers : RaftAnswers) :
  handleEmergencyRecovery n nodeID answers
    = (recoveryCall n nodeID answers).map (fun call =>
      { n with raft := n.raft.forceRecoverCluster call.1 call.2 })
  := by
  rw [handleEmergencyRecovery, recoveryCall, if_neg (by simp [h])]
  cases n.raft.getPeers answers.getConfiguration with
  | error e => rfl
  | ok peers =>
    dsimp only
    split_ifs <;> rfl

/-- A member advertises an address for a node. -/
def Advertises (d : RaftDelegate) (nodeID raftAddress : String) : Prop :=
  ∃ members, d.members = some members ∧ ∃ member ∈ members, ∃ metadata,
    unmarshalNodeMetadata member.nodeMeta = .ok metadata ∧ metadata.nodeID = nodeID ∧
    metadata.raftAddress = raftAddress

/-- Whenever the cluster is recovered when `x` leaves, the voters were the surviving node and
`x`, the address is one the surviving node advertises, and no voter but `x` is dropped. -/
def DropsOnlyFailed (n : Member) (x : String) (answers : RaftAnswers) : Prop :=
  ∀ s a, recoveryCall n x answers = some (s, a) →
    (∀ j, j ∈ n.raft.configuration.ids ↔ j = s ∨ j = x) ∧
    Advertises n.delegate s a ∧
    ∀ j ∈ n.raft.configuration.ids,
      j ∉ (n.raft.forceRecoverCluster s a).configuration.ids → j = x

/-- There are two voters, the node that leaves is none of them, and one of them has an address;
the first such voter has an identifier. -/
def OutsiderLeaves (n : Member) (x : String) (answers : RaftAnswers) : Prop :=
  n.delegate.hasRaftMgr = true ∧ answers.getConfiguration = none ∧
    n.raft.configuration.ids.length = 2 ∧ x ∉ n.raft.configuration.ids ∧
    ∃ s, n.raft.configuration.ids.find? (fun j =>
      getSurvivingNodeAddress n.delegate j ≠ "") = some s ∧ s ≠ ""

/-! ### The surviving node -/

/-- What a search gives, other than its default, is found at a thing of the list. -/
theorem exists_of_findSome_getD {α : Type} {f : α → Option String} {l : List α}
    (h : (l.findSome? f).getD "" ≠ "") :
  ∃ x ∈ l, f x = some ((l.findSome? f).getD "")
  := by
  cases hfound : l.findSome? f with
  | none =>
    rw [hfound] at h
    apply absurd rfl h
  | some address => apply List.exists_of_findSome?_eq_some hfound

/-- An address found for a node is one it advertises. -/
theorem advertises_of_address {d : RaftDelegate} {nodeID : String}
    (h : getSurvivingNodeAddress d nodeID ≠ "") :
  Advertises d nodeID (getSurvivingNodeAddress d nodeID)
  := by
  rw [getSurvivingNodeAddress] at h ⊢
  cases hmembers : d.members with
  | none =>
    rw [hmembers] at h
    apply absurd rfl h
  | some members =>
    rw [hmembers] at h
    dsimp only at h ⊢
    split_ifs at h ⊢ with hshutdown
    · apply absurd rfl h
    · obtain ⟨member, hmember, haddress⟩ := exists_of_findSome_getD h
      split at haddress
      · cases haddress
      · rename_i metadata hmetadata
        obtain ⟨⟨hid, -⟩, heq⟩ := Option.ite_none_right_eq_some.mp haddress
        use members, hmembers, member, hmember, metadata, hmetadata, hid
        apply Option.some.inj heq

/-- The surviving node is the first voter with an address, the one that left apart. -/
theorem findSurvivingNode_eq (d : RaftDelegate) (x : String) (peers : List String) :
  findSurvivingNode d x peers
    = ((peers.find? (fun j => j ≠ x ∧ getSurvivingNodeAddress d j ≠ "")).map
        (fun j => (j, getSurvivingNodeAddress d j))).getD ("", "")
  := by
  induction peers with
  | nil => rfl
  | cons p peers ih =>
    rw [findSurvivingNode, List.find?_cons]
    split_ifs with hx haddress
    · simp [hx, ih]
    · simp [hx, haddress]
    · simp [haddress, ih]

/-- A node that is no voter is not passed over. -/
theorem find_of_notMem {d : RaftDelegate} {x : String} {peers : List String} (hx : x ∉ peers) :
  peers.find? (fun j => j ≠ x ∧ getSurvivingNodeAddress d j ≠ "")
    = peers.find? (fun j => getSurvivingNodeAddress d j ≠ "")
  := by
  apply List.find?_congr
  intro j hj
  have hne : j ≠ x := fun heq => hx (heq ▸ hj)
  simp [hne]

/-- The cluster is recovered if there are two voters and the first with an address, the one that
left apart, has an identifier. -/
theorem recoveryCall_eq_some {n : Member} {x : String} {answers : RaftAnswers} {s a : String} :
  recoveryCall n x answers = some (s, a) ↔
    n.delegate.hasRaftMgr = true ∧ answers.getConfiguration = none ∧
      n.raft.configuration.ids.length = 2 ∧
      n.raft.configuration.ids.find? (fun j =>
        j ≠ x ∧ getSurvivingNodeAddress n.delegate j ≠ "") = some s ∧
      s ≠ "" ∧ a = getSurvivingNodeAddress n.delegate s
  := by
  rw [recoveryCall]
  cases hmgr : n.delegate.hasRaftMgr with
  | false => simp
  | true =>
    cases hanswer : answers.getConfiguration with
    | some e => simp [RaftState.getPeers]
    | none =>
      by_cases hlength : n.raft.configuration.ids.length = 2
      · simp only [RaftState.getPeers, hlength, findSurvivingNode_eq]
        cases hfound : n.raft.configuration.ids.find? (fun j =>
            j ≠ x ∧ getSurvivingNodeAddress n.delegate j ≠ "") with
        | none => simp
        | some j =>
          have haddress : j ≠ x ∧ getSurvivingNodeAddress n.delegate j ≠ "" := by
            simpa using List.find?_some hfound
          simp only [haddress.2, Option.map_some, Option.getD_some, or_false]
          by_cases hj : j = ""
          · simp only [hj, Option.some_inj]
            apply iff_of_false
            · simp
            · rintro ⟨-, -, -, rfl, hs, -⟩
              apply hs rfl
          · rw [if_neg (by simp), if_neg (by simp), if_neg hj, Option.some_inj, Prod.mk.injEq,
              Option.some_inj]
            constructor
            · rintro ⟨rfl, rfl⟩
              exact ⟨trivial, trivial, trivial, rfl, hj, rfl⟩
            · rintro ⟨-, -, -, rfl, -, rfl⟩
              exact ⟨rfl, rfl⟩
      · simp [RaftState.getPeers, hlength]

/-- When an outsider leaves two voters, the first of them with an address is recovered. -/
theorem recoveryCall_of_outsiderLeaves {n : Member} {x : String} {answers : RaftAnswers}
    (h : OutsiderLeaves n x answers) :
  ∃ s, recoveryCall n x answers = some (s, getSurvivingNodeAddress n.delegate s) ∧
    n.raft.configuration.ids.find? (fun j => getSurvivingNodeAddress n.delegate j ≠ "") = some s
  := by
  obtain ⟨hmgr, hanswer, hlength, hx, s, hfound, hs⟩ := h
  refine ⟨s, ?_, hfound⟩
  apply recoveryCall_eq_some.mpr
  rw [find_of_notMem hx]
  exact ⟨hmgr, hanswer, hlength, hfound, hs, rfl⟩

/-- Two different voters of two are all there are. -/
theorem mem_ids_of_two {c : Configuration} {i j : String} (hlength : c.ids.length = 2)
    (hi : i ∈ c.ids) (hj : j ∈ c.ids) (hne : i ≠ j) (k : String) :
  k ∈ c.ids ↔ k = i ∨ k = j
  := by
  obtain ⟨p, q, hpq⟩ := List.length_eq_two.mp hlength
  rw [hpq, List.mem_pair] at hi hj ⊢
  grind

/-- If the node that leaves is no outsider, it and the node recovered were the voters. -/
theorem mem_ids_of_recoveryCall {n : Member} {x : String} {answers : RaftAnswers} {s a : String}
    (h : ¬ OutsiderLeaves n x answers) (hcall : recoveryCall n x answers = some (s, a))
    (j : String) :
  j ∈ n.raft.configuration.ids ↔ j = s ∨ j = x
  := by
  obtain ⟨hmgr, hanswer, hlength, hfound, hs, -⟩ := recoveryCall_eq_some.mp hcall
  obtain ⟨hne, -⟩ : s ≠ x ∧ getSurvivingNodeAddress n.delegate s ≠ "" := by
    simpa using List.find?_some hfound
  have hx : x ∈ n.raft.configuration.ids := by
    by_contra hx
    rw [find_of_notMem hx] at hfound
    apply h ⟨hmgr, hanswer, hlength, hx, s, hfound, hs⟩
  apply mem_ids_of_two hlength (List.mem_of_find?_eq_some hfound) hx hne

/-- Recovery drops the node that left only, exactly if it is one of the voters whenever one of
the two voters can be recovered. -/
theorem dropsOnlyFailed_iff (n : Member) (x : String) (answers : RaftAnswers) :
  DropsOnlyFailed n x answers ↔ ¬ OutsiderLeaves n x answers
  := by
  constructor
  · intro h houtsider
    obtain ⟨s, hcall, -⟩ := recoveryCall_of_outsiderLeaves houtsider
    apply houtsider.2.2.2.1
    apply ((h s _ hcall).1 x).mpr (Or.inr rfl)
  · intro h s a hcall
    have hvoters := mem_ids_of_recoveryCall h hcall
    obtain ⟨-, -, -, hfound, -, rfl⟩ := recoveryCall_eq_some.mp hcall
    obtain ⟨-, haddress⟩ : s ≠ x ∧ getSurvivingNodeAddress n.delegate s ≠ "" := by
      simpa using List.find?_some hfound
    use hvoters, advertises_of_address haddress
    intro j hj hdropped
    apply ((hvoters j).mp hj).resolve_left
    rintro rfl
    apply hdropped
    apply List.mem_singleton_self

/-- Two voters, and a third member that is none of them. -/
def twoVoters : Member where
  delegate := ⟨true,
    some [⟨"n1", .metadata ⟨"n1", "10.0.0.1:9000", "peer"⟩⟩,
      ⟨"n2", .metadata ⟨"n2", "10.0.0.2:9000", "peer"⟩⟩,
      ⟨"n3", .metadata ⟨"n3", "10.0.0.3:9000", "peer"⟩⟩],
    [], ∅, "n1", false⟩
  raft := ⟨⟨[⟨"n1", "10.0.0.1:9000"⟩, ⟨"n2", "10.0.0.2:9000"⟩], by decide⟩, true⟩

/-- The third member leaves, and the second voter is dropped. -/
theorem voter_dropped :
  let answers : RaftAnswers := ⟨none, fun _ => ⟨true, none⟩, fun _ => ⟨true, none⟩⟩
  recoveryCall twoVoters "n3" answers = some ("n1", "10.0.0.1:9000") ∧
    twoVoters.raft.configuration.ids = ["n1", "n2"] ∧
    (removeRaftPeer twoVoters "n3" answers).raft.configuration.ids = ["n1"]
  := by
  decide +kernel

end Cluster

end VmProxyAuth
