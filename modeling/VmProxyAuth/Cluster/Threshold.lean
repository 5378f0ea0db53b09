import VmProxyAuth.Cluster.Formation

/-!
# The bootstrap threshold

A node that waits for its bootstrap runs discovery round after round, and joins what it finds.
It should bootstrap as soon as it knows of as many nodes as it expects.  In each round it counts
the addresses that are not members yet, and itself: the members joined before do not count, and
its own address counts once more if the providers give it and it is no member
(`bootstraps_in_time_iff`).
-/

namespace VmProxyAuth

namespace Cluster

namespace DiscoveryRound

/-- The addresses of the members. -/
def memberAddresses (r : DiscoveryRound) : Finset String :=
  ((r.members.getD []).map (fun m => m.1 ++ ":" ++ toString m.2)).toFinset

/-- The addresses found that are not those of members. -/
def fresh (r : DiscoveryRound) : Finset String := r.allPeers.toFinset \ r.memberAddresses

theorem isAlreadyConnected_iff (r : DiscoveryRound) (peerAddr : String) :
  r.isAlreadyConnected peerAddr = true ↔ peerAddr ∈ r.memberAddresses
  := by
  rw [isAlreadyConnected, memberAddresses]
  cases r.members with
  | none => simp
  | some members => simp

/-- What the loop keeps has not been seen before, is no member, and is kept once. -/
theorem filterFrom_spec (r : DiscoveryRound) (seen peers : List String) :
  (r.filterFrom seen peers).Nodup ∧
    ∀ j, j ∈ r.filterFrom seen peers ↔ j ∈ peers ∧ j ∉ seen ∧ j ∉ r.memberAddresses
  := by
  fun_induction filterFrom r seen peers with
  | case1 seen => simp
  | case2 seen peer peers hseen ih =>
    use ih.1
    intro j
    rw [ih.2, List.mem_cons]
    constructor
    · rintro ⟨hj, hnew⟩
      exact ⟨Or.inr hj, hnew⟩
    · rintro ⟨rfl | hj, hnew⟩
      · apply absurd hseen hnew.1
      · exact ⟨hj, hnew⟩
  | case3 seen peer peers hseen hskip ih =>
    have hmember : peer ∈ r.memberAddresses := (r.isAlreadyConnected_iff peer).mp hskip
    use ih.1
    intro j
    rw [ih.2, List.mem_cons, List.mem_cons]
    constructor
    · rintro ⟨hj, hnew, hnone⟩
      exact ⟨Or.inr hj, fun hj => hnew (Or.inr hj), hnone⟩
    · rintro ⟨rfl | hj, hnew, hnone⟩
      · apply absurd hmember hnone
      · refine ⟨hj, ?_, hnone⟩
        rintro (rfl | hj)
        · apply hnone hmember
        · apply hnew hj
  | case4 seen peer peers hseen hskip ih =>
    have hmember : peer ∉ r.memberAddresses := fun h =>
      hskip ((r.isAlreadyConnected_iff peer).mpr h)
    constructor
    · rw [List.nodup_cons, ih.2]
      refine ⟨?_, ih.1⟩
      rintro ⟨-, hnew, -⟩
      apply hnew List.mem_cons_self
    · intro j
      rw [List.mem_cons, ih.2, List.mem_cons, List.mem_cons]
      by_cases hj : j = peer
      · subst hj
        simp [hseen, hmember]
      · simp [hj]

/-- The peers left after filtering are the fresh ones, each once. -/
theorem length_filterPeers (r : DiscoveryRound) :
  (r.filterPeers r.allPeers).length = r.fresh.card
  := by
  obtain ⟨hnodup, hmem⟩ := r.filterFrom_spec [] r.allPeers
  rw [filterPeers, ← List.toFinset_card_of_nodup hnodup]
  congr 1
  ext j
  simp [fresh, hmem]

end DiscoveryRound

namespace Threshold

/-- An address as members have it: a host and a port. -/
abbrev Address : Type := String × ℕ

/-- The text of an address. -/
def text (a : Address) : String := a.1 ++ ":" ++ toString a.2

/-- A node in discovery: its storage and its members, and whether in some round so far it knew
of as many addresses as it expects. -/
structure State where
  storage : RaftStorage
  members : List Address
  reached : Bool

/-- What the providers give in a round. -/
abbrev Found : Type := List (Except GoError (List Address))

/-- The round of a node in which joining and the Raft library succeed. -/
def round (s : State) (found : Found) : DiscoveryRound where
  hasPeerJoiner := true
  hasRaftManager := true
  members := some s.members
  discovered := found.map (Except.map (List.map text))
  joinErr := none
  raftErr := none

/-- The addresses the providers give. -/
def addresses (found : Found) : List Address :=
  found.flatMap (fun result =>
    match result with
    | .ok peers => peers
    | .error _ => [])

/-- The addresses a node knows of in a round: its own, those of its members and those found. -/
def known (self : Address) (s : State) (found : Found) : Finset String :=
  insert (text self) ((round s found).memberAddresses ∪ (round s found).allPeers.toFinset)

/-- One round: the peers left after filtering are joined and become members. -/
def step (self : Address) (s : State) (found : Found) : Option State :=
  some {
    storage := s.storage.step (.runDiscovery (round s found))
    members := s.members ++ (addresses found).filter (fun a =>
      text a ∈ (round s found).filterPeers (round s found).allPeers)
    reached := s.reached ||
      decide (s.storage.config.bootstrapExpected ≤ (known self s found).card) }

/-- The rounds of a node with an address of its own. -/
def machine (self : Address) : Machine State Found := ⟨step self⟩

/-- The node has bootstrapped exactly if it has known of enough addresses in some round. -/
def InTime (s : State) : Prop := s.storage.bootstrapped.isSome = s.reached

/-- Enough addresses are known, but none of them is fresh, or the fresh ones alone are too
few. -/
def Missed (self : Address) (s : State) (found : Found) : Prop :=
  s.storage.config.bootstrapExpected ≤ (known self s found).card ∧
    ((round s found).fresh = ∅ ∨
      ((round s found).fresh.card : ℤ) + 1 < s.storage.config.bootstrapExpected)

/-- The own address is found and is no member, there is no other member, and just one address is
missing without counting the own one twice. -/
def Premature (self : Address) (s : State) (found : Found) : Prop :=
  text self ∈ (round s found).fresh ∧ (round s found).memberAddresses = ∅ ∧
    ((round s found).fresh.card : ℤ) + 1 = s.storage.config.bootstrapExpected

/-- As long as the node has not bootstrapped, no round is missed and none is premature. -/
def CountsRight (self : Address) (s : State) (found : Found) : Prop :=
  s.storage.bootstrapDeferred = true → ¬ Missed self s found ∧ ¬ Premature self s found

instance (self : Address) (s : State) (found : Found) : Decidable (CountsRight self s found) :=
  inferInstanceAs (Decidable (_ → ¬ (_ ∧ (_ ∨ _)) ∧ ¬ (_ ∧ _ ∧ _)))

/-- A node that waits for its bootstrap. -/
structure Waiting (storage : RaftStorage) : Prop where
  deferred : storage.bootstrapDeferred = true
  bootstrapped : storage.bootstrapped = none

/-! ### What a round counts -/

/-- There are fresh addresses, and with the node itself they are enough. -/
def Enough (s : State) (found : Found) : Prop :=
  (round s found).fresh ≠ ∅ ∧
    s.storage.config.bootstrapExpected ≤ ((round s found).fresh.card : ℤ) + 1

instance (s : State) (found : Found) : Decidable (Enough s found) :=
  inferInstanceAs (Decidable (_ ∧ _))

/-- If the own address is found and there are no members, only the fresh addresses are known. -/
theorem known_eq_fresh {self : Address} {s : State} {found : Found}
    (hself : text self ∈ (round s found).fresh) (hnone : (round s found).memberAddresses = ∅) :
  known self s found = (round s found).fresh
  := by
  rw [DiscoveryRound.fresh, hnone, Finset.sdiff_empty] at hself ⊢
  rw [known, hnone, Finset.empty_union, Finset.insert_eq_self]
  apply hself

/-- Otherwise one more is known than the fresh ones. -/
theorem card_fresh_lt {self : Address} {s : State} {found : Found}
    (h : ¬ (text self ∈ (round s found).fresh ∧ (round s found).memberAddresses = ∅)) :
  (round s found).fresh.card < (known self s found).card
  := by
  have hfresh : (round s found).fresh ⊆ known self s found := by
    intro j hj
    rw [DiscoveryRound.fresh, Finset.mem_sdiff] at hj
    simp [known, hj.1]
  apply Finset.card_lt_card
  apply (Finset.ssubset_iff_of_subset hfresh).mpr
  by_cases hself : text self ∈ (round s found).fresh
  · obtain ⟨m, hm⟩ : (round s found).memberAddresses.Nonempty := by
      apply Finset.nonempty_iff_ne_empty.mpr
      intro hnone
      apply h ⟨hself, hnone⟩
    use m
    simp [known, DiscoveryRound.fresh, hm]
  · use text self, Finset.mem_insert_self _ _

/-- Counting the fresh addresses and itself agrees with what is known exactly if the round is
neither missed nor premature. -/
theorem counts_iff (self : Address) (s : State) (found : Found) :
  (Enough s found ↔
    s.storage.config.bootstrapExpected ≤ (known self s found).card) ↔
  ¬ Missed self s found ∧ ¬ Premature self s found
  := by
  rw [Enough, Missed, Premature]
  by_cases halone : text self ∈ (round s found).fresh ∧ (round s found).memberAddresses = ∅
  · have hne : (round s found).fresh ≠ ∅ := Finset.ne_empty_of_mem halone.1
    rw [known_eq_fresh halone.1 halone.2]
    simp only [hne, halone.1, halone.2, ne_eq, not_false_eq_true, true_and, false_or]
    omega
  · have hlt := card_fresh_lt halone
    have hpremature : ¬ (text self ∈ (round s found).fresh ∧
        (round s found).memberAddresses = ∅ ∧
        ((round s found).fresh.card : ℤ) + 1 = s.storage.config.bootstrapExpected) := by
      rintro ⟨hself, hnone, -⟩
      apply halone ⟨hself, hnone⟩
    rw [and_iff_left hpremature]
    by_cases hne : (round s found).fresh = ∅
    · simp [hne]
    · simp only [hne, ne_eq, not_false_eq_true, true_and, false_or]
      omega

/-- A round with fresh addresses tries the bootstrap with them. -/
theorem step_round (s : State) (found : Found) :
  s.storage.step (.runDiscovery (round s found))
    = if (round s found).fresh = ∅ then s.storage
      else (s.storage.tryDelayedBootstrap
        ((round s found).filterPeers (round s found).allPeers) none).1
  := by
  have hempty : (round s found).filterPeers (round s found).allPeers = [] ↔
      (round s found).fresh = ∅ := by
    rw [← List.length_eq_zero_iff, DiscoveryRound.length_filterPeers, Finset.card_eq_zero]
  have hnone : (round s found).allPeers = [] → (round s found).fresh = ∅ := by
    intro h
    rw [DiscoveryRound.fresh, h, List.toFinset_nil, Finset.empty_sdiff]
  rw [RaftStorage.step, DiscoveryRound.runDiscovery]
  simp only [hempty]
  by_cases hfresh : (round s found).fresh = ∅
  · simp [hfresh]
  · rw [if_neg hfresh, if_neg hfresh, if_neg (by simp [round]), if_neg (mt hnone hfresh),
      if_neg (by simp [round])]
    rfl

/-- A node that waits bootstraps in a round exactly if there is enough, and waits on
otherwise. -/
theorem step_round_of_deferred {s : State} (h : s.storage.bootstrapDeferred = true)
    (found : Found) :
  s.storage.step (.runDiscovery (round s found))
    = { s.storage with
        bootstrapDeferred := decide (¬ Enough s found)
        bootstrapped := if Enough s found then some s.storage.alone else s.storage.bootstrapped }
  := by
  rw [step_round]
  by_cases hfresh : (round s found).fresh = ∅
  · have hnot : ¬ Enough s found := fun henough => henough.1 hfresh
    rw [if_pos hfresh, if_neg hnot, decide_eq_true hnot, ← h]
  · rw [if_neg hfresh, RaftStorage.tryDelayedBootstrap, h, DiscoveryRound.length_filterPeers]
    by_cases hfew : ((round s found).fresh.card : ℤ) + 1 < s.storage.config.bootstrapExpected
    · have hnot : ¬ Enough s found := fun henough => not_lt.mpr henough.2 hfew
      rw [if_neg (by simp), if_pos hfew, if_neg hnot, decide_eq_true hnot, ← h]
    · have henough : Enough s found := ⟨hfresh, not_lt.mp hfew⟩
      rw [if_neg (by simp), if_neg hfew, if_pos henough, decide_eq_false (not_not.mpr henough)]
      rfl

/-- A node that does not wait stays as it is. -/
theorem step_round_of_not_deferred {s : State} (h : s.storage.bootstrapDeferred = false)
    (found : Found) :
  s.storage.step (.runDiscovery (round s found)) = s.storage
  := by
  rw [step_round, RaftStorage.tryDelayedBootstrap, h, if_pos (Bool.not_false), ite_self]

/-! ### The rounds -/

/-- The bootstrap is deferred as long as the node has not bootstrapped. -/
def Deferring (s : State) : Prop := s.storage.bootstrapDeferred = s.storage.bootstrapped.isNone

/-- A round defers the bootstrap on or bootstraps, and it does the latter in time exactly if it
counts right. -/
theorem round_spec {self : Address} {s t : State} {found : Found} (hs : Deferring s)
    (h : (machine self).step s found = some t) :
  Deferring t ∧ (InTime s → (InTime t ↔ CountsRight self s found))
  := by
  obtain rfl := Option.some.inj h
  rw [Deferring] at hs ⊢
  rw [InTime, InTime, CountsRight]
  cases hdeferred : s.storage.bootstrapDeferred with
  | false =>
    have hdone : s.storage.bootstrapped.isSome = true := by
      rw [← Option.not_isNone, ← hs, hdeferred]
      rfl
    rw [step_round_of_not_deferred hdeferred]
    use hs
    intro hintime
    apply iff_of_true
    · rw [← hintime, hdone, Bool.true_or]
    · rintro ⟨⟩
  | true =>
    have hnone : s.storage.bootstrapped = none := by
      rw [← Option.isNone_iff_eq_none, ← hs, hdeferred]
    rw [step_round_of_deferred hdeferred, hnone, ← counts_iff]
    constructor
    · by_cases henough : Enough s found
      · simp [henough]
      · simp [henough]
    · intro hintime
      have hreached : s.reached = false := hintime.symm
      by_cases henough : Enough s found
      · simp [henough, hreached]
      · simp [henough, hreached]

/-- Over every sequence of rounds, a waiting node bootstraps in the first round in which it
knows of enough addresses, and in no earlier one, exactly if no round is missed or premature as
long as it waits. -/
theorem bootstraps_in_time_iff {storage : RaftStorage} (h : Waiting storage) (self : Address)
    (members : List Address) (rounds : List Found) :
  (machine self).Always InTime ⟨storage, members, false⟩ rounds ↔
    (machine self).Meets (CountsRight self) ⟨storage, members, false⟩ rounds
  := by
  apply Machine.always_iff_meets (J := Deferring)
  · intro s found t hs ht
    apply (round_spec hs ht).1
  · intro s found t hs hintime ht
    apply (round_spec hs ht).2 hintime
  · rw [Deferring, h.deferred, h.bootstrapped]
    rfl
  · rw [InTime, h.bootstrapped]
    rfl

/-! ### Peers that come one after the other -/

/-- A node that expects three servers. -/
def waiting : RaftStorage := ⟨⟨"n1", "10.0.0.1:9000", [], 3⟩, true, none⟩

/-- The second peer is found a round after the first.  The node knows of three addresses then,
but does not bootstrap. -/
theorem second_round_missed :
  ∃ s, (machine ("10.0.0.1", 7946)).run ⟨waiting, [("10.0.0.1", 7946)], false⟩
      [[.ok [("10.0.0.2", 7946)]], [.ok [("10.0.0.2", 7946), ("10.0.0.3", 7946)]]] = some s ∧
    s.members = [("10.0.0.1", 7946), ("10.0.0.2", 7946), ("10.0.0.3", 7946)] ∧
    s.reached = true ∧ s.storage.bootstrapped = none
  := by
  refine ⟨_, rfl, ?_, ?_, ?_⟩
  · decide +kernel
  · decide +kernel
  · decide +kernel

/-- If both peers are found at once, the node bootstraps in that round. -/
theorem first_round_bootstraps :
  (machine ("10.0.0.1", 7946)).Always InTime ⟨waiting, [("10.0.0.1", 7946)], false⟩
    [[], [.ok [("10.0.0.2", 7946), ("10.0.0.3", 7946), ("10.0.0.1", 7946)]]]
  := (bootstraps_in_time_iff ⟨rfl, rfl⟩ _ _ _).mpr (by decide +kernel)

end Threshold

end Cluster

end VmProxyAuth
