import VmProxyAuth.Lib.Machine
import VmProxyAuth.Lib.Notices
import VmProxyAuth.Storage.Local

/-!
# Watchers of a storage

A write is stored first, and the watchers of the key are notified in a step of its own.  In the
local storage the writer itself does both, one after the other, while other writers do the same;
in the replicated state machine the notification is a goroutine that waits until the lock is
free.  So two notifications for a key may overtake each other, and a watcher is left with an
event that describes a value that has been overwritten (`overwritten_value_last`).  The watchers
converge to what is stored in the runs in which the last notification for a key is also the last
one sent (`watchers_converge`).
-/

namespace VmProxyAuth

namespace Storage

/-- `DefaultWatchChannelBufferSize` and `DefaultRaftWatchChannelSize`. -/
def watchChannelSize : ℕ := 100

/-- An event describes what is stored for its key: the value set, or nothing once deleted. -/
def Describes (type : StateEventType) (value : GoString) (stored : Option StorageItem) : Prop :=
  match type with
  | .set => stored.map StorageItem.value = some value
  | .delete => stored = none

/-! ### The local storage -/

namespace LocalWatch

/-- An event for the watchers of a key.  The keys have not come through JSON. -/
structure Event where
  type : StateEventType
  key : GoString
  value : GoString
  timestamp : ℤ
  nodeID : GoString
  deriving DecidableEq, Repr

/-- A write with one store step. -/
inductive Write where
  | set (key value : GoString) (ttl : ℤ)
  | delete (key : GoString)

/-- The key of a write. -/
def Write.key : Write → GoString
  | .set key _ _ => key
  | .delete key => key

/-- The store step of a write. -/
def Write.store (data : GoMap GoString StorageItem) (now : ℤ) : Write → GoMap GoString StorageItem
  | .set key value ttl => LocalStorage.set data now key value ttl
  | .delete key => LocalStorage.delete data key

/-- The event of a write. -/
def Write.event (nodeID : GoString) (now : ℤ) : Write → Event
  | .set key value _ => ⟨.set, key, value, now, nodeID⟩
  | .delete key => ⟨.delete, key, [], now, nodeID⟩

/-- A call of `Set`, `Delete` or `SetMultiple`. -/
inductive Call where
  | set (key value : GoString) (ttl : ℤ)
  | delete (key : GoString)
  | setMultiple (items : GoMap GoString GoString) (ttl : ℤ)

/-- The writes of a call.  `SetMultiple` visits the items in the given order. -/
def Call.writes (order : List (GoString × GoString)) : Call → Option (List Write)
  | .set key value ttl => some [.set key value ttl]
  | .delete key => some [.delete key]
  | .setMultiple items ttl =>
    if order.Perm items.items then some (order.map (fun e => .set e.1 e.2 ttl)) else none

/-- A call in progress: the writes not stored yet, and the notification it is in. -/
structure Writer where
  todo : List Write
  notice : Option ℕ

/-- The items, the calls in progress, and the notifications. -/
structure State where
  data : GoMap GoString StorageItem
  writers : GoMap ℕ Writer
  board : Board GoString Event

/-- What happens: a call starts, stores its next write at some time, has notified the watchers
of it, or returns; or a notification goes on, or a watcher comes, goes or receives an event. -/
inductive Action where
  | call (id : ℕ) (c : Call) (order : List (GoString × GoString))
  | store (id : ℕ) (createdAt timestamp : ℤ)
  | proceed (id : ℕ)
  | ret (id : ℕ)
  | board (a : Board.Action GoString)

/-- `Watch` of the keys with a prefix. -/
def watch (w : ℕ) (keyPrefix : GoString) : Action :=
  .board (.watch w (fun key => GoString.hasPrefix key keyPrefix))

/-- One step of the storage. -/
def step (nodeID : GoString) (s : State) : Action → Option State
  | .call id c order =>
    match s.writers.lookup id, c.writes order with
    | none, some writes => some { s with writers := s.writers.insert id ⟨writes, none⟩ }
    | _, _ => none
  | .store id createdAt timestamp =>
    match s.writers.lookup id with
    | some ⟨write :: todo, none⟩ =>
      some {
        data := write.store s.data createdAt
        writers := s.writers.insert id ⟨todo, some s.board.posted.length⟩
        board := s.board.post write.key (write.event nodeID timestamp) }
    | _ => none
  | .proceed id =>
    match s.writers.lookup id with
    | some ⟨todo, some i⟩ =>
      if s.board.pending.lookup i = none then
        some { s with writers := s.writers.insert id ⟨todo, none⟩ }
      else none
    | _ => none
  | .ret id =>
    match s.writers.lookup id with
    | some ⟨[], none⟩ => some { s with writers := s.writers.erase id }
    | _ => none
  | .board a => (s.board.step watchChannelSize a).map (fun b => { s with board := b })

/-- The runs of the storage. -/
def machine (nodeID : GoString) : Machine State Action := ⟨step nodeID⟩

/-- The storage with some items, before anything happens. -/
def start (data : GoMap GoString StorageItem) : State := ⟨data, ∅, Board.empty⟩

/-- An event describes what is stored for a key. -/
def State.Describes (s : State) (key : GoString) (e : Event) : Prop :=
  Storage.Describes e.type e.value (s.data.lookup key)

/-- For every watcher that has dropped no event, and every key that no more events of are to be
sent to it, the last event it got describes what is stored. -/
def Converged (s : State) : Prop := s.board.Converged s.Describes

/-- An event sent as the last one of its key is that of the last store step for the key. -/
def LatestLast (s : State) : Action → Prop
  | .board a => s.board.SendsLatestLast watchChannelSize a
  | _ => True

instance decidableLatestLast (s : State) : ∀ a, Decidable (LatestLast s a)
  | .board a => Board.decidableSendsLatestLast watchChannelSize s.board a
  | .call _ _ _ => isTrue trivial
  | .store _ _ _ => isTrue trivial
  | .proceed _ => isTrue trivial
  | .ret _ => isTrue trivial

theorem Write.describes (write : Write) (data : GoMap GoString StorageItem)
    (nodeID : GoString) (createdAt timestamp : ℤ) :
  Describes (write.event nodeID timestamp).type (write.event nodeID timestamp).value
    ((write.store data createdAt).lookup write.key)
  := by
  cases write with
  | set key value ttl =>
    rw [store, LocalStorage.set, Write.key, AList.lookup_insert]
    rfl
  | delete key =>
    rw [store, LocalStorage.delete, Write.key, AList.lookup_erase]
    rfl

theorem Write.lookup_store (write : Write) (data : GoMap GoString StorageItem) (now : ℤ)
    {key : GoString} (h : key ≠ write.key) :
  (write.store data now).lookup key = data.lookup key
  := by
  cases write with
  | set key' value ttl => apply AList.lookup_insert_ne h
  | delete key' => apply AList.lookup_erase_ne h

/-- What a step does to the items and the events: it stores and posts a write, it is a step of
the notifications, or it leaves them. -/
inductive Effect (nodeID : GoString) (s t : State) : Action → Prop where
  | wrote (id : ℕ) (createdAt timestamp : ℤ) (write : Write)
      (hdata : t.data = write.store s.data createdAt)
      (hboard : t.board = s.board.post write.key (write.event nodeID timestamp)) :
      Effect nodeID s t (.store id createdAt timestamp)
  | notified (b : Board.Action GoString) (hdata : t.data = s.data)
      (hboard : s.board.step watchChannelSize b = some t.board) : Effect nodeID s t (.board b)
  | left {a : Action} (hdata : t.data = s.data) (hboard : t.board = s.board)
      (hguard : LatestLast s a) : Effect nodeID s t a

section

variable {nodeID : GoString} {s t : State} {a : Action}

theorem effect_step (h : (machine nodeID).step s a = some t) :
  Effect nodeID s t a
  := by
  cases a with
  | call id c order =>
    rw [machine] at h
    dsimp only [step] at h
    split at h
    · cases h
      exact Effect.left rfl rfl trivial
    · cases h
  | store id createdAt timestamp =>
    rw [machine] at h
    dsimp only [step] at h
    split at h
    · rename_i write todo _
      cases h
      apply Effect.wrote id createdAt timestamp write rfl rfl
    · cases h
  | proceed id =>
    rw [machine] at h
    dsimp only [step] at h
    split at h
    · obtain ⟨-, ⟨⟩⟩ := Option.ite_none_right_eq_some.mp h
      exact Effect.left rfl rfl trivial
    · cases h
  | ret id =>
    rw [machine] at h
    dsimp only [step] at h
    split at h
    · cases h
      exact Effect.left rfl rfl trivial
    · cases h
  | board b =>
    obtain ⟨b', hb', rfl⟩ := Option.map_eq_some_iff.mp h
    exact Effect.notified b rfl hb'

theorem describes_congr (h : t.data = s.data) :
  t.Describes = s.Describes
  := by
  funext key e
  rw [State.Describes, State.Describes, h]

/-- The last event of every key describes what is stored. -/
def State.Tracks (s : State) : Prop := s.board.Follows s.Describes

/-- Every step keeps the last events describing what is stored, as a write is posted when it is
stored. -/
theorem tracks_step (hs : s.Tracks) (h : (machine nodeID).step s a = some t) :
  t.Tracks
  := by
  rw [State.Tracks]
  cases effect_step h with
  | wrote id createdAt timestamp write hdata hboard =>
    rw [hboard]
    apply Board.follows_post hs
    · intro key e hkey he
      rw [State.Describes, hdata, write.lookup_store _ _ hkey]
      apply he
    · rw [State.Describes, hdata]
      apply write.describes
  | notified b hdata hboard =>
    rw [describes_congr hdata]
    apply Board.follows_step hs hboard
  | left hdata hboard _ =>
    rw [describes_congr hdata, hboard]
    apply hs

/-- The watchers stay settled exactly if an event sent as the last one of its key is that of the
last store step for it. -/
theorem settled_step (hs : s.Tracks) (hsettled : s.board.AllSettled)
    (h : (machine nodeID).step s a = some t) :
  t.board.AllSettled ↔ LatestLast s a
  := by
  cases effect_step h with
  | wrote id createdAt timestamp write _ hboard =>
    rw [hboard]
    use fun _ => trivial
    intro _
    apply Board.settled_post hs.sound hsettled
  | notified b _ hboard => apply Board.settled_step_iff hs.sound hsettled hboard
  | left _ hboard hguard =>
    rw [hboard]
    use fun _ => hguard, fun _ => hsettled

end

theorem tracks_start (data : GoMap GoString StorageItem) :
  (start data).Tracks
  := Board.follows_empty _

theorem settled_start (data : GoMap GoString StorageItem) :
  (start data).board.AllSettled
  := by
  intro w x hx
  cases hx

/-- The watchers are settled along a run exactly if every event it sends as the last one of its
key is that of the last store step for the key. -/
theorem settled_iff_latestLast (nodeID : GoString) (data : GoMap GoString StorageItem)
    (as : List Action) :
  (machine nodeID).Always (fun s => s.Tracks ∧ s.board.AllSettled) (start data) as ↔
    (machine nodeID).Meets LatestLast (start data) as
  := by
  apply Machine.always_iff_meets (J := State.Tracks)
  · intro s a t hs h
    apply tracks_step hs h
  · intro s a t hs hsettled h
    rw [and_iff_right (tracks_step hs h)]
    apply settled_step hs hsettled.2 h
  · apply tracks_start
  · use tracks_start data, settled_start data

end LocalWatch

/-! ### The replicated state machine -/

namespace FsmWatch

/-- The items, and the notifications. -/
structure State where
  data : Data
  board : Board String StateEvent

/-- What happens: a command of the log is applied; or a notification goes on, or a watcher
comes, goes or receives an event. -/
inductive Action where
  | apply (cmd : RaftCommand) (order : List (String × GoString))
  | board (a : Board.Action String)

/-- `addWatcher` for the keys with a prefix. -/
def addWatcher (w : ℕ) (keyPrefix : GoString) : Action :=
  .board (.watch w (fun key => GoString.hasPrefix (str key) keyPrefix))

/-- `notifyWatchers` for each event in turn. -/
def notifyAll (b : Board String StateEvent) (events : List StateEvent) :
    Board String StateEvent :=
  events.foldl (fun b e => b.post e.key e) b

/-- One step of the state machine.  `Apply` holds the lock, so that no notification is in the
middle of it. -/
def step (s : State) : Action → Option State
  | .apply cmd order =>
    if s.board.idle = true ∧ order.Perm cmd.items.items then
      match Storage.apply s.data cmd order with
      | .ok (data, events) => some ⟨data, notifyAll s.board events⟩
      | .error _ => some s
    else none
  | .board a => (s.board.step watchChannelSize a).map (fun b => { s with board := b })

/-- The runs of the state machine. -/
def machine : Machine State Action := ⟨step⟩

/-- The state machine with some items, before anything happens. -/
def start (data : Data) : State := ⟨data, Board.empty⟩

/-- An event describes what is stored for a key. -/
def State.Describes (s : State) (key : String) (e : StateEvent) : Prop :=
  Storage.Describes e.type e.value (s.data.lookup key)

/-- For every watcher that has dropped no event, and every key that no more events of are to be
sent to it, the last event it got describes what is stored. -/
def Converged (s : State) : Prop := s.board.Converged s.Describes

/-- The events of each key came to each watcher in the order of the log, in which they were
posted. -/
def LogOrder (s : State) : Prop :=
  ∀ w x, s.board.watchers.lookup w = some x →
    x.delivered.Pairwise (fun i j => s.board.keyOf i = s.board.keyOf j → i < j)

/-- No event is sent before an earlier one of its key, and one sent as the last one of its key
is that of the last command for the key. -/
def InLogOrder (s : State) : Action → Prop
  | .board a => s.board.SendsInOrder watchChannelSize a ∧
      s.board.SendsLatestLast watchChannelSize a
  | _ => True

instance decidableInLogOrder (s : State) : ∀ a, Decidable (InLogOrder s a)
  | .board _ => inferInstanceAs (Decidable (_ ∧ _))
  | .apply _ _ => isTrue trivial

/-- The last event of every key describes what is stored. -/
def State.Tracks (s : State) : Prop := s.board.Follows s.Describes

/-- The watchers are settled, and the events of each key come to them in order. -/
def State.Sorted (s : State) : Prop := s.board.AllSettled ∧ s.board.AllOrdered

/-- Storing an item or deleting it, and posting the event, keeps the last events describing what
is stored. -/
theorem tracks_post {data data' : Data} {b : Board String StateEvent}
    (h : (State.mk data b).Tracks) {e : StateEvent}
    (hothers : ∀ key, key ≠ e.key → data'.lookup key = data.lookup key)
    (hnew : Describes e.type e.value (data'.lookup e.key)) :
  (State.mk data' (b.post e.key e)).Tracks
  := by
  apply Board.follows_post h
  · intro key e' hkey he'
    rw [State.Describes, hothers key hkey]
    apply he'
  · apply hnew

theorem tracks_set {data : Data} {b : Board String StateEvent} (h : (State.mk data b).Tracks)
    (cmd : RaftCommand) (key : String) (value : GoString) :
  (State.mk (data.insert key (cmd.item value)) (b.post key (cmd.setEvent key value))).Tracks
  := by
  apply tracks_post (e := cmd.setEvent key value) h
  · intro key' hkey
    apply AList.lookup_insert_ne hkey
  · rw [RaftCommand.setEvent, AList.lookup_insert]
    rfl

/-- The items of a command that sets several are stored and posted one after the other. -/
theorem tracks_setAll (cmd : RaftCommand) (order : List (String × GoString)) {data : Data}
    {b : Board String StateEvent} (h : (State.mk data b).Tracks) :
  (State.mk (data.setAll (order.map (fun e => (e.1, cmd.item e.2))))
    (notifyAll b (order.map (fun e => cmd.setEvent e.1 e.2)))).Tracks
  := by
  induction order generalizing data b with
  | nil => apply h
  | cons e order ih => apply ih (tracks_set h cmd e.1 e.2)

theorem tracks_apply {s : State} (hs : s.Tracks) {cmd : RaftCommand}
    {order : List (String × GoString)} {data : Data} {events : List StateEvent}
    (h : Storage.apply s.data cmd order = .ok (data, events)) :
  (State.mk data (notifyAll s.board events)).Tracks
  := by
  rw [Storage.apply] at h
  split_ifs at h
  · cases h
    apply tracks_set hs cmd cmd.key cmd.value
  · cases h
    apply tracks_post (e := ⟨.delete, cmd.key, [], cmd.timestamp, cmd.nodeID⟩) hs
    · intro key hkey
      apply AList.lookup_erase_ne hkey
    · apply AList.lookup_erase
  · cases h
    apply tracks_setAll cmd order hs

/-- Spawning notifications changes nothing for the watchers yet. -/
theorem sorted_notifyAll (events : List StateEvent) {b : Board String StateEvent} (hb : b.Sound)
    (h : b.AllSettled ∧ b.AllOrdered) :
  (notifyAll b events).AllSettled ∧ (notifyAll b events).AllOrdered
  := by
  induction events generalizing b with
  | nil => apply h
  | cons e events ih =>
    apply ih (Board.sound_post hb e.key e)
    use Board.settled_post hb h.1 e.key e
    apply Board.ordered_post hb h.2 e.key e

section

variable {s t : State} {a : Action}

/-- Applying a command leaves the state, or posts its events. -/
theorem apply_eq_some {cmd : RaftCommand} {order : List (String × GoString)}
    (h : machine.step s (.apply cmd order) = some t) :
  t = s ∨ ∃ data events, Storage.apply s.data cmd order = .ok (data, events) ∧
    t = ⟨data, notifyAll s.board events⟩
  := by
  obtain ⟨-, h⟩ := Option.ite_none_right_eq_some.mp h
  split at h
  · rename_i data events happly
    right
    use data, events, happly
    apply (Option.some.inj h).symm
  · left
    apply (Option.some.inj h).symm

/-- Every step keeps the last events describing what is stored. -/
theorem tracks_step (hs : s.Tracks) (h : machine.step s a = some t) :
  t.Tracks
  := by
  cases a with
  | apply cmd order =>
    rcases apply_eq_some h with rfl | ⟨data, events, happly, rfl⟩
    · apply hs
    · apply tracks_apply hs happly
  | board b =>
    obtain ⟨b', hb', rfl⟩ := Option.map_eq_some_iff.mp h
    apply Board.follows_step hs hb'

/-- The watchers stay settled and get the events of each key in order exactly if none is sent
before an earlier one of its key, and the last one sent is that of the last command. -/
theorem sorted_step (hs : s.Tracks) (hsorted : s.Sorted) (h : machine.step s a = some t) :
  t.Sorted ↔ InLogOrder s a
  := by
  cases a with
  | apply cmd order =>
    use fun _ => trivial
    intro _
    rcases apply_eq_some h with rfl | ⟨data, events, -, rfl⟩
    · apply hsorted
    · apply sorted_notifyAll events hs.sound hsorted
  | board b =>
    obtain ⟨b', hb', rfl⟩ := Option.map_eq_some_iff.mp h
    rw [State.Sorted, Board.settled_step_iff hs.sound hsorted.1 hb',
      Board.ordered_step_iff hs.sound hsorted.2 hb', and_comm]
    rfl

end

theorem tracks_start (data : Data) :
  (start data).Tracks
  := Board.follows_empty _

theorem sorted_start (data : Data) :
  (start data).Sorted
  := by
  constructor
  · intro w x hx
    cases hx
  · intro w x hx
    cases hx

/-- The watchers are settled and get the events of each key in order, along a run, exactly if
the run sends none before an earlier one of its key, and the last one sent is that of the last
command. -/
theorem sorted_iff_inLogOrder (data : Data) (as : List Action) :
  machine.Always (fun s => s.Tracks ∧ s.Sorted) (start data) as ↔
    machine.Meets InLogOrder (start data) as
  := by
  apply Machine.always_iff_meets (J := State.Tracks)
  · intro s a t hs h
    apply tracks_step hs h
  · intro s a t hs hsorted h
    rw [and_iff_right (tracks_step hs h)]
    apply sorted_step hs hsorted.2 h
  · apply tracks_start
  · exact ⟨tracks_start data, sorted_start data⟩

end FsmWatch

/-! ### Convergence -/

/-- In the local storage, the watchers converge to what is stored in every run in which an event
sent as the last one of its key is that of the last store step for the key.  In the replicated
state machine they do if, besides, no event is sent before an earlier one of its key; then the
events of each key come in the order of the log. -/
theorem watchers_converge (nodeID : GoString) (items : GoMap GoString StorageItem)
    (writes : List LocalWatch.Action) (data : Data) (log : List FsmWatch.Action) :
  ((LocalWatch.machine nodeID).Meets LocalWatch.LatestLast (LocalWatch.start items) writes →
    (LocalWatch.machine nodeID).Always LocalWatch.Converged (LocalWatch.start items) writes) ∧
  (FsmWatch.machine.Meets FsmWatch.InLogOrder (FsmWatch.start data) log →
    FsmWatch.machine.Always (fun s => FsmWatch.Converged s ∧ FsmWatch.LogOrder s)
      (FsmWatch.start data) log)
  := by
  constructor
  · intro h
    apply Machine.Always.imp _ ((LocalWatch.settled_iff_latestLast nodeID items writes).mpr h)
    intro s hs
    apply Board.converged_of_settled hs.1 hs.2
  · intro h
    apply Machine.Always.imp _ ((FsmWatch.sorted_iff_inLogOrder data log).mpr h)
    rintro s ⟨hs, hsettled, hordered⟩
    use Board.converged_of_settled hs hsettled
    intro w x hx
    apply (hordered w x hx).delivered

/-- A notification: it starts, is sent to the one watcher, and finishes. -/
def localNotice (i w : ℕ) : List LocalWatch.Action :=
  [.board (.start i [w]), .board (.send i w), .board (.finish i)]

def fsmNotice (i w : ℕ) : List FsmWatch.Action :=
  [.board (.start i [w]), .board (.send i w), .board (.finish i)]

/-- Two writers of the key `k`, of which the first stores `1` before the second stores `2`. -/
def twoWrites : List LocalWatch.Action :=
  [LocalWatch.watch 0 (str "k"), .call 1 (.set (str "k") [1] 0) [],
    .call 2 (.set (str "k") [2] 0) [], .store 1 0 0, .store 2 1 1]

def setCommand (value : GoString) (timestamp : ℤ) : RaftCommand :=
  ⟨0, "k", value, ∅, 0, "n", timestamp⟩

def twoCommands : List FsmWatch.Action :=
  [FsmWatch.addWatcher 0 (str "k"), .apply (setCommand [1] 0) [], .apply (setCommand [2] 1) []]

/-- The second write is notified before the first: both events have come, none was dropped, and
the last one says `1`, but `2` is stored. -/
theorem overwritten_value_last :
  (∃ s x, (LocalWatch.machine (str "n")).run (LocalWatch.start ∅)
      (twoWrites ++ localNotice 1 0 ++ localNotice 0 0) = some s ∧
    s.board.pending.keys = [] ∧ s.board.watchers.lookup 0 = some x ∧ x.dropped = false ∧
    s.board.lastEvent (str "k") x = some ⟨.set, str "k", [1], 0, str "n"⟩ ∧
    s.data.lookup (str "k") = some ⟨[2], 1, 0⟩) ∧
  ∃ s x, FsmWatch.machine.run (FsmWatch.start ∅)
      (twoCommands ++ fsmNotice 1 0 ++ fsmNotice 0 0) = some s ∧
    s.board.pending.keys = [] ∧ s.board.watchers.lookup 0 = some x ∧ x.dropped = false ∧
    x.delivered = [1, 0] ∧ s.board.lastEvent "k" x = some ⟨.set, "k", [1], 0, "n"⟩ ∧
    s.data.lookup "k" = some ⟨[2], 1, 0⟩
  := by
  constructor
  · refine ⟨_, _, rfl, ?_, rfl, ?_, ?_, ?_⟩
    · decide +kernel
    · decide +kernel
    · decide +kernel
    · decide +kernel
  · refine ⟨_, _, rfl, ?_, rfl, ?_, ?_, ?_, ?_⟩
    · decide +kernel
    · decide +kernel
    · decide +kernel
    · decide +kernel
    · decide +kernel

/-- If the two writes are notified in their order, the last event says `2`. -/
theorem last_value_last :
  ((LocalWatch.machine (str "n")).Always LocalWatch.Converged (LocalWatch.start ∅)
      (twoWrites ++ localNotice 0 0 ++ localNotice 1 0)) ∧
    FsmWatch.machine.Always (fun s => FsmWatch.Converged s ∧ FsmWatch.LogOrder s)
      (FsmWatch.start ∅) (twoCommands ++ fsmNotice 0 0 ++ fsmNotice 1 0)
  := by
  have h := watchers_converge (str "n") ∅ (twoWrites ++ localNotice 0 0 ++ localNotice 1 0) ∅
    (twoCommands ++ fsmNotice 0 0 ++ fsmNotice 1 0)
  constructor
  · apply h.1
    decide +kernel
  · apply h.2
    decide +kernel

end Storage

end VmProxyAuth
