import VmProxyAuth.Lib.Machine
import VmProxyAuth.Storage.Fsm

/-!
# Replicas

A replica applies the commands of the log; its reads spawn clean-ups that delete a key at
some later point.  What a replica stores is what the log determines, but for items that
have expired, as long as every clean-up finds an expired item (`replicas_agree`).  A
clean-up that finds a fresh item removes it on that replica only (`cleanup_disagrees`).
-/

namespace VmProxyAuth

namespace Storage

/-- A replica: its data, the clean-ups spawned and not run yet, its clock, and the commands
it has applied. -/
structure Replica where
  data : Data
  pending : List String
  now : ℤ
  log : List RaftCommand

/-- What can happen at a replica: a command is applied, its items visited in some order; a
key is read; a clean-up runs; or time passes. -/
inductive ReplicaAction where
  | apply (cmd : RaftCommand) (order : List (String × GoString))
  | get (key : String)
  | cleanup (key : String)
  | tick (d : ℕ)

namespace Replica

/-- A replica that has applied nothing. -/
def init (now : ℤ) : Replica := ⟨∅, [], now, []⟩

/-- One step of a replica. -/
def step (s : Replica) : ReplicaAction → Option Replica
  | .apply cmd order =>
    if order.Perm cmd.items.items then
      some { s with
             data := applyData s.data cmd order
             log := s.log ++ [cmd] }
    else none
  | .get key =>
    some { s with
           pending := if getSpawns s.data s.now key then s.pending ++ [key] else s.pending }
  | .cleanup key =>
    if key ∈ s.pending then
      some { s with
             data := Storage.cleanup s.data key
             pending := s.pending.erase key }
    else none
  | .tick d => some { s with now := s.now + d }

/-- The machine of a replica. -/
def machine : Machine Replica ReplicaAction := ⟨step⟩

/-- The data a log determines. -/
def applyLog (log : List RaftCommand) : Data :=
  log.foldl (fun data cmd => applyData data cmd cmd.items.items) ∅

theorem lookup_applyLog_append (log : List RaftCommand) (cmd : RaftCommand) (key : String) :
  (applyLog (log ++ [cmd])).lookup key = cmd.effect key ((applyLog log).lookup key)
  := by
  rw [applyLog, List.foldl_append, List.foldl_cons, List.foldl_nil]
  apply lookup_applyData (List.Perm.refl _)

/-- A clean-up runs when the item under its key, if there is one, has expired. -/
def cleansExpired (s : Replica) : ReplicaAction → Bool
  | .cleanup key => (s.data.lookup key).all (fun item => item.isExpired s.now)
  | _ => true

/-- A replica stores what the log determines, but for items that have expired. -/
def Tracks (s : Replica) : Prop :=
  ∀ key, s.data.lookup key = (applyLog s.log).lookup key ∨
    s.data.lookup key = none ∧
      ∃ item, (applyLog s.log).lookup key = some item ∧ item.isExpired s.now = true

/-- A replica that tracks the log reads what the log determines. -/
theorem Tracks.get_eq {s : Replica} (h : s.Tracks) {now : ℤ} (hnow : s.now ≤ now) (key : String) :
  get s.data now key = get (applyLog s.log) now key
  := by
  rcases h key with heq | ⟨hnone, item, hitem, hexpired⟩
  · rw [get, get, heq]
  · rw [get, get, hnone, hitem, Option.bind_some, StorageItem.isExpired_mono hnow hexpired,
      if_pos rfl]
    rfl

/-- The effect of a command is to set, to delete, or nothing, whatever was stored before. -/
theorem effect_cases (cmd : RaftCommand) (key : String) :
  (∃ result, ∀ before, cmd.effect key before = result) ∨
    ∀ before, cmd.effect key before = before
  := by
  simp only [RaftCommand.effect]
  split
  · split
    · exact Or.inl ⟨_, fun _ => rfl⟩
    · exact Or.inr (fun _ => rfl)
  · split
    · split
      · exact Or.inl ⟨_, fun _ => rfl⟩
      · exact Or.inr (fun _ => rfl)
    · split
      · cases cmd.items.lookup key with
        | some value => exact Or.inl ⟨_, fun _ => rfl⟩
        | none => exact Or.inr (fun _ => rfl)
      · exact Or.inr (fun _ => rfl)

theorem Tracks.apply {s : Replica} (h : s.Tracks) {cmd : RaftCommand}
    {order : List (String × GoString)} (horder : order.Perm cmd.items.items) :
  Tracks { s with data := applyData s.data cmd order, log := s.log ++ [cmd] }
  := by
  intro key
  rw [lookup_applyData horder, lookup_applyLog_append]
  rcases effect_cases cmd key with ⟨result, hresult⟩ | hsame
  · left
    rw [hresult, hresult]
  · rw [hsame, hsame]
    apply h key

theorem Tracks.cleanup {s : Replica} (h : s.Tracks) {key : String}
    (hexpired : (s.data.lookup key).all (fun item => item.isExpired s.now))
    (pending : List String) :
  Tracks { s with data := Storage.cleanup s.data key, pending := pending }
  := by
  intro key'
  rw [Storage.cleanup, GoMap.lookup_erase_eq_ite]
  split
  · rename_i hkey
    subst hkey
    rcases h key' with heq | hgone
    · rw [heq] at hexpired
      cases hitem : (applyLog s.log).lookup key' with
      | none => exact Or.inl rfl
      | some item =>
        right
        rw [hitem] at hexpired
        use rfl, item, rfl
        simpa using hexpired
    · right
      use rfl
      apply hgone.2
  · apply h key'

/-- A step in which a clean-up finds no fresh item keeps a replica tracking the log. -/
theorem tracks_step {s t : Replica} {a : ReplicaAction} (hs : s.Tracks) (ha : cleansExpired s a)
    (h : step s a = some t) :
  t.Tracks
  := by
  cases a with
  | apply cmd order =>
    rw [step] at h
    split at h
    · rename_i horder
      cases h
      apply hs.apply horder
    · cases h
  | get key =>
    cases h
    apply hs
  | cleanup key =>
    rw [step] at h
    split at h
    · cases h
      apply hs.cleanup ha
    · cases h
  | tick d =>
    cases h
    intro key
    rcases hs key with heq | ⟨hnone, item, hitem, hexpired⟩
    · exact Or.inl heq
    · right
      use hnone, item, hitem
      apply StorageItem.isExpired_mono _ hexpired
      dsimp only
      omega

theorem tracks_of_cleansExpired {now : ℤ} {actions : List ReplicaAction} {s : Replica}
    (h : machine.Meets (fun s a => cleansExpired s a) (init now) actions)
    (hrun : machine.run (init now) actions = some s) :
  s.Tracks
  := by
  have hinit : (init now).Tracks := fun _ => Or.inl rfl
  apply (h.always (fun s a t => tracks_step) hinit).last hrun

/-- Two replicas that have applied the same log read the same under every key at every clock
reading neither of them has passed, if every clean-up that ran at them found no fresh
item. -/
theorem replicas_agree
    (now₁ now₂ : ℤ) (actions₁ actions₂ : List ReplicaAction)
    (h₁ : machine.Meets (fun s a => cleansExpired s a) (init now₁) actions₁)
    (h₂ : machine.Meets (fun s a => cleansExpired s a) (init now₂) actions₂)
    (s₁ s₂ : Replica) (hrun₁ : machine.run (init now₁) actions₁ = some s₁)
    (hrun₂ : machine.run (init now₂) actions₂ = some s₂) (hlog : s₁.log = s₂.log)
    (now : ℤ) (hnow₁ : s₁.now ≤ now) (hnow₂ : s₂.now ≤ now) (key : String) :
  get s₁.data now key = get s₂.data now key
  := by
  have htracks₁ := tracks_of_cleansExpired h₁ hrun₁
  have htracks₂ := tracks_of_cleansExpired h₂ hrun₂
  rw [htracks₁.get_eq hnow₁, htracks₂.get_eq hnow₂, hlog]

/-- A clean-up that finds a fresh item at a replica that tracks the log makes it read
something else than the log determines. -/
theorem cleanup_disagrees {s t : Replica} (hs : s.Tracks) {key : String} {item : StorageItem}
    (hitem : s.data.lookup key = some item) (hfresh : item.isExpired s.now = false)
    (h : step s (.cleanup key) = some t) :
  get t.data t.now key ≠ get (applyLog t.log) t.now key
  := by
  have hlog : (applyLog s.log).lookup key = some item := by
    rcases hs key with heq | ⟨hnone, -⟩
    · rw [← heq, hitem]
    · rw [hnone] at hitem
      cases hitem
  rw [step] at h
  split at h
  · cases h
    rw [get, get, Storage.cleanup, AList.lookup_erase, hlog, Option.bind_some, hfresh]
    exact (Option.some_ne_none item.value).symm
  · cases h

/-! ### A clean-up after a new value -/

/-- A command that sets the key `k`. -/
def setKey (value : GoString) (ttl timestamp : ℤ) : RaftCommand where
  type := 0
  key := "k"
  value := value
  items := ∅
  ttl := ttl
  nodeID := "leader"
  timestamp := timestamp

/-- The first replica reads the expired item, applies the new value, and then runs the
clean-up; the second applies the same log. -/
theorem fresh_item_cleaned_up :
  ∃ s₁ s₂, machine.run (init 0) [.apply (setKey [1] 10 0) [], .tick 20, .get "k",
      .apply (setKey [2] 0 20) [], .cleanup "k"] = some s₁ ∧
    machine.run (init 0) [.apply (setKey [1] 10 0) [], .tick 20,
      .apply (setKey [2] 0 20) []] = some s₂ ∧
    s₁.log = s₂.log ∧ s₁.now = s₂.now ∧
    get s₁.data 20 "k" = none ∧ get s₂.data 20 "k" = some [2]
  := by
  refine ⟨_, _, rfl, rfl, rfl, rfl, ?_⟩
  decide +kernel

/-- If the clean-up runs before the new value is applied, the replicas agree. -/
theorem cleaned_up_in_time :
  ∃ s₁ s₂, machine.run (init 0) [.apply (setKey [1] 10 0) [], .tick 20, .get "k", .cleanup "k",
      .apply (setKey [2] 0 20) []] = some s₁ ∧
    machine.run (init 0) [.apply (setKey [1] 10 0) [], .tick 20,
      .apply (setKey [2] 0 20) []] = some s₂ ∧
    get s₁.data 20 "k" = get s₂.data 20 "k"
  := ⟨_, _, rfl, rfl, replicas_agree 0 0
      [.apply (setKey [1] 10 0) [], .tick 20, .get "k", .cleanup "k", .apply (setKey [2] 0 20) []]
      [.apply (setKey [1] 10 0) [], .tick 20, .apply (setKey [2] 0 20) []]
      (by decide +kernel) (by decide +kernel) _ _ rfl rfl rfl 20 le_rfl le_rfl "k"⟩

end Replica

end Storage

end VmProxyAuth
