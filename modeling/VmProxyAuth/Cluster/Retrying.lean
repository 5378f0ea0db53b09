import VmProxyAuth.Cluster.Formation

/-!
# Retrying a delayed bootstrap

`TryDelayedBootstrap` is called again and again, and the Raft library may refuse a bootstrap at
any call.  A bootstrap that was refused should be attempted again.  But the node forgets that its
bootstrap was deferred before it attempts it, so there is one attempt only, and a node whose
attempt fails is never bootstrapped (`retriable_iff`).
-/

namespace VmProxyAuth

namespace Cluster

namespace RaftStorage

/-- There are enough peers, the node itself included. -/
def Enough (rs : RaftStorage) (discoveredPeers : List String) : Prop :=
  rs.config.bootstrapExpected ≤ (discoveredPeers.length : ℤ) + 1

instance (rs : RaftStorage) (discoveredPeers : List String) :
    Decidable (rs.Enough discoveredPeers) :=
  inferInstanceAs (Decidable (_ ≤ _))

/-- `TryDelayedBootstrap` comes to call `BootstrapCluster`. -/
def Attempts (rs : RaftStorage) (discoveredPeers : List String) : Prop :=
  rs.bootstrapDeferred = true ∧ rs.Enough discoveredPeers

/-- A call that does not come to `BootstrapCluster` does nothing. -/
theorem tryDelayedBootstrap_of_not_attempts {rs : RaftStorage} {peers : List String}
    (h : ¬ rs.Attempts peers) (err : Option GoError) :
  rs.tryDelayedBootstrap peers err = (rs, none)
  := by
  rw [tryDelayedBootstrap]
  split_ifs with hdeferred hfew
  · rfl
  · rfl
  · exact absurd ⟨by simpa using hdeferred, not_lt.mp hfew⟩ h

/-- A call that does gives the answer of the Raft library, and the bootstrap is no longer
deferred. -/
theorem tryDelayedBootstrap_of_attempts {rs : RaftStorage} {peers : List String}
    (h : rs.Attempts peers) (err : Option GoError) :
  (rs.tryDelayedBootstrap peers err).1.bootstrapDeferred = false ∧
    (rs.tryDelayedBootstrap peers err).2
      = err.map (GoError.wrapf "failed to bootstrap cluster: %w" [])
  := by
  rw [tryDelayedBootstrap, h.1, if_neg (by decide), if_neg (not_lt.mpr h.2)]
  cases err with
  | none => exact ⟨rfl, rfl⟩
  | some e => exact ⟨rfl, rfl⟩

end RaftStorage

namespace Retrying

/-- A call of `TryDelayedBootstrap`: the peers discovered, and the answer the Raft library has for
a bootstrap. -/
structure Call where
  discoveredPeers : List String
  raftErr : Option GoError

section

variable (rs : RaftStorage) (calls : ℕ → Call)

/-- The node before each call. -/
def state : ℕ → RaftStorage
  | 0 => rs
  | n + 1 =>
    ((state n).tryDelayedBootstrap (calls n).discoveredPeers (calls n).raftErr).1

/-- What a call returns. -/
def returned (n : ℕ) : Option GoError :=
  ((state rs calls n).tryDelayedBootstrap (calls n).discoveredPeers (calls n).raftErr).2

/-- A call attempts the bootstrap. -/
def AttemptsAt (n : ℕ) : Prop := (state rs calls n).Attempts (calls n).discoveredPeers

/-- A call attempts the bootstrap, and fails. -/
def FailsAt (n : ℕ) : Prop := AttemptsAt rs calls n ∧ returned rs calls n ≠ none

/-- A call attempts the bootstrap, and succeeds. -/
def SucceedsAt (n : ℕ) : Prop := AttemptsAt rs calls n ∧ returned rs calls n = none

/-- A failed bootstrap can be retried: a call that returns an error leaves the bootstrap as
deferred as it was; if only finitely many attempts fail, each call with enough peers after a
failure attempts the bootstrap again, until one succeeds; and at most one does. -/
structure Retriable : Prop where
  kept : ∀ n, returned rs calls n ≠ none →
    (state rs calls (n + 1)).bootstrapDeferred = (state rs calls n).bootstrapDeferred
  retried : {n | FailsAt rs calls n}.Finite → ∀ n, FailsAt rs calls n → ∀ m, n < m →
    rs.Enough (calls m).discoveredPeers → (∀ k, n < k → k < m → ¬ SucceedsAt rs calls k) →
    AttemptsAt rs calls m
  once : ∀ n m, SucceedsAt rs calls n → SucceedsAt rs calls m → n = m

/-- If the bootstrap is deferred, the first call with enough peers is not refused. -/
def FirstAccepted : Prop :=
  rs.bootstrapDeferred = true → ∀ n, rs.Enough (calls n).discoveredPeers →
    (∀ k < n, ¬ rs.Enough (calls k).discoveredPeers) → (calls n).raftErr = none

end

variable {rs : RaftStorage} {calls : ℕ → Call}

theorem config_state (n : ℕ) :
  (state rs calls n).config = rs.config
  := by
  induction n with
  | zero => rfl
  | succ n ih => rw [state, RaftStorage.config_tryDelayedBootstrap, ih]

/-- The bootstrap is deferred until the first call with enough peers. -/
theorem deferred_state_iff (n : ℕ) :
  (state rs calls n).bootstrapDeferred = true ↔
    rs.bootstrapDeferred = true ∧ ∀ k < n, ¬ rs.Enough (calls k).discoveredPeers
  := by
  induction n with
  | zero => simp [state]
  | succ n ih =>
    have henough : (state rs calls n).Enough (calls n).discoveredPeers ↔
        rs.Enough (calls n).discoveredPeers := by
      rw [RaftStorage.Enough, RaftStorage.Enough, config_state]
    rw [Nat.forall_lt_succ_right, ← and_assoc, ← ih, ← henough, state]
    by_cases hattempts : (state rs calls n).Attempts (calls n).discoveredPeers
    · rw [(RaftStorage.tryDelayedBootstrap_of_attempts hattempts _).1]
      simp [hattempts.2]
    · rw [RaftStorage.tryDelayedBootstrap_of_not_attempts hattempts]
      rw [RaftStorage.Attempts, not_and] at hattempts
      simpa using hattempts

/-- The bootstrap is attempted at the first call with enough peers, and at no other. -/
theorem attemptsAt_iff (n : ℕ) :
  AttemptsAt rs calls n ↔
    rs.bootstrapDeferred = true ∧ rs.Enough (calls n).discoveredPeers ∧
      ∀ k < n, ¬ rs.Enough (calls k).discoveredPeers
  := by
  rw [AttemptsAt, RaftStorage.Attempts, RaftStorage.Enough, config_state, deferred_state_iff,
    and_assoc, and_comm (b := _ ≤ _)]
  rfl

theorem attemptsAt_unique {n m : ℕ} (hn : AttemptsAt rs calls n) (hm : AttemptsAt rs calls m) :
  n = m
  := by
  obtain ⟨-, henough, hfirst⟩ := (attemptsAt_iff n).mp hn
  obtain ⟨-, henough', hfirst'⟩ := (attemptsAt_iff m).mp hm
  rcases Nat.lt_trichotomy n m with hlt | heq | hgt
  · apply absurd henough (hfirst' n hlt)
  · apply heq
  · apply absurd henough' (hfirst m hgt)

/-- A call returns an error exactly if it attempts the bootstrap and is refused. -/
theorem returned_ne_none_iff (n : ℕ) :
  returned rs calls n ≠ none ↔ AttemptsAt rs calls n ∧ (calls n).raftErr ≠ none
  := by
  rw [returned]
  by_cases hattempts : AttemptsAt rs calls n
  · rw [(RaftStorage.tryDelayedBootstrap_of_attempts hattempts _).2]
    simp [hattempts]
  · rw [RaftStorage.tryDelayedBootstrap_of_not_attempts hattempts]
    simp [hattempts]

/-- A failed bootstrap can be retried exactly if there is none: the first call with enough peers is
not refused. -/
theorem retriable_iff (rs : RaftStorage) (calls : ℕ → Call) :
  Retriable rs calls ↔ FirstAccepted rs calls
  := by
  constructor
  · intro h hdeferred n henough hfirst
    have hattempts : AttemptsAt rs calls n := (attemptsAt_iff n).mpr ⟨hdeferred, henough, hfirst⟩
    by_contra hrefused
    have hkept := h.kept n ((returned_ne_none_iff n).mpr ⟨hattempts, hrefused⟩)
    rw [hattempts.1, state, (RaftStorage.tryDelayedBootstrap_of_attempts hattempts _).1] at hkept
    cases hkept
  · intro h
    have hnone : ∀ n, returned rs calls n = none := by
      intro n
      by_contra hreturned
      obtain ⟨hattempts, hrefused⟩ := (returned_ne_none_iff n).mp hreturned
      obtain ⟨hdeferred, henough, hfirst⟩ := (attemptsAt_iff n).mp hattempts
      apply hrefused (h hdeferred n henough hfirst)
    constructor
    · intro n hreturned
      apply absurd (hnone n) hreturned
    · intro _ n hfails
      apply absurd (hnone n) hfails.2
    · intro n m hn hm
      apply attemptsAt_unique hn.1 hm.1

/-- The Raft library refuses the bootstrap once.  The bootstrap is not deferred any more, and the
next call with enough peers returns no error, but does not bootstrap. -/
theorem refused_bootstrap_not_retried :
  let waiting : RaftStorage := ⟨⟨"n1", "10.0.0.1:9000", [], 2⟩, true, none⟩
  let first := waiting.tryDelayedBootstrap ["10.0.0.2:7946"] (some (.library "raft"))
  let second := first.1.tryDelayedBootstrap ["10.0.0.2:7946"] none
  first.2 = some (.wrapf "failed to bootstrap cluster: %w" [] (.library "raft")) ∧
    first.1.bootstrapDeferred = false ∧ second.2 = none ∧ second.1.bootstrapped = none
  := ⟨rfl, rfl, rfl, rfl⟩

end Retrying

end Cluster

end VmProxyAuth
