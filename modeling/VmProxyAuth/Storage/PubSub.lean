import VmProxyAuth.Lib.Feed
import VmProxyAuth.Storage.Cleanup
import VmProxyAuth.Storage.Codec
import VmProxyAuth.Storage.Redis

/-!
# Events between the nodes of a Redis storage

A node publishes an event for each of its writes on one channel of the server.  The server passes
a message on to the subscriptions it has, once and without an acknowledgement, so that a node whose
connection is broken misses it; and a client that gets no answer may send the message again.  A
node receives at most one message each time its ticker fires, skips its own, and notifies its
watchers of the others.  The nodes are of any number, and everything they do may be interleaved.
`sound_of_run` says what holds of every state they reach: a node follows the messages that reach
it, and its watchers have got what they are to get of them.
-/

namespace VmProxyAuth

namespace Storage

namespace PubSub

open LocalWatch (Event Call)
open Cleanup (Registered)

/-! ### Events as messages -/

/-- `StateEvent` as it is decoded: the type is any number, and the strings are text. -/
structure Received where
  type : ℤ
  key : GoString
  value : GoString
  timestamp : ℤ
  nodeID : GoString
  deriving DecidableEq, Repr

/-- The zero event. -/
def Received.zero : Received := ⟨0, [], [], StorageItem.zero.createdAt, []⟩

/-- `IsValid`. -/
def Received.isValid (e : Received) : Bool :=
  decide (e.key ≠ [] ∧ e.nodeID ≠ [] ∧ e.timestamp ≠ StorageItem.zero.createdAt)

/-- `StateEventSet` and `StateEventDelete`. -/
def typeCode : StateEventType → ℤ
  | .set => 0
  | .delete => 1

/-- The fields of `StateEvent`. -/
def eventFields : List (Json.TaggedField Event Received) :=
  [⟨"type", fun e => some (.number (typeCode e.type)),
      Json.readNumber (fun n e => { e with type := n })⟩,
    ⟨"key", fun e => some (Json.ofString e.key),
      Json.readString (fun s e => { e with key := str s })⟩,
    ⟨"value", fun e => omitEmpty Json.ofBytes e.value,
      Json.readBytes (fun b e => { e with value := b })⟩,
    ⟨"timestamp", fun e => some (.time e.timestamp),
      Json.readTime (fun t e => { e with timestamp := t })⟩,
    ⟨"node_id", fun e => some (Json.ofString e.nodeID),
      Json.readString (fun s e => { e with nodeID := str s })⟩]

/-- The message published for an event. -/
def payload (e : Event) : Json := Json.encodeTagged eventFields e

/-- The event of a message. -/
def decodeEvent (message : Json) : Option Received :=
  Json.decodeTagged eventFields Received.zero message

/-- `handlePubSubMessage`: the event the watchers are notified of, if any. -/
def handlePubSubMessage (nodeID : GoString) (message : Json) : Option Received :=
  match decodeEvent message with
  | none => none
  | some event =>
    if event.nodeID = nodeID then none
    else if event.isValid then some event
    else none

/-- An event with its strings made text: the bytes that are not are replaced. -/
def asText (e : Event) : Received :=
  ⟨typeCode e.type, str (Utf8.toText e.key), e.value, e.timestamp, str (Utf8.toText e.nodeID)⟩

/-- An event is decoded as it was, with its strings made text. -/
theorem decodeEvent_payload (e : Event) :
  decodeEvent (payload e) = some (asText e)
  := by
  have hvalue : ∀ x : Received, x.value = [] →
      (omitEmpty Json.ofBytes e.value).elim (some x)
          (fun j => Json.readBytes (fun b x => { x with value := b }) j x)
        = some { x with value := e.value } := by
    intro x hx
    rw [omitEmpty]
    split
    · rename_i hempty
      rw [hempty, Option.elim_none, ← hx]
    · rw [Option.elim_some, Json.readBytes, Json.toBytes_ofBytes, Option.map_some]
  have hread := hvalue
    ⟨typeCode e.type, str (Utf8.toText e.key), [], StorageItem.zero.createdAt, []⟩ rfl
  rw [decodeEvent, payload, Json.decodeTagged_encodeTagged (by decide)]
  simp only [eventFields, List.foldlM_cons, List.foldlM_nil, Option.elim_some, Json.readNumber,
    Json.ofString, Json.readString, Option.bind_eq_bind, Option.bind_some, Received.zero, hread]
  rfl

/-! ### Writes -/

/-- The server executes the command of a write. -/
def exec (keyPrefix : GoString) (m : Redis.Keyspace GoString) (now : ℤ) :
    LocalWatch.Write → Redis.Keyspace GoString
  | .set key value ttl => RedisStorage.set keyPrefix m now key value ttl
  | .delete key => RedisStorage.delete keyPrefix m key

/-- Whether the command of a write deletes a key. -/
def deletes (keyPrefix : GoString) (m : Redis.Keyspace GoString) (now : ℤ) : LocalWatch.Write → Bool
  | .set _ _ _ => false
  | .delete key => (Redis.get m now (RedisStorage.formatKey keyPrefix key)).isSome

/-- The events of a call, once its commands have been executed: none for a key that was not
there to be deleted.  `SetMultiple` visits the items again, in the given order. -/
def eventsOf (nodeID : GoString) (timestamp : ℤ) (order : List (GoString × GoString))
    (deleted : Bool) (c : Call) : Option (List Event) :=
  match c, deleted with
  | .delete _, false => some []
  | c, _ =>
    (c.writes order).map (fun writes => writes.map (LocalWatch.Write.event nodeID timestamp))

/-- How far a call has come: it has commands executed, has events to publish, or is in
`publishStateEvent` with one of them, having found the storage open. -/
inductive Phase where
  | executing (todo : List LocalWatch.Write) (deleted : Bool)
  | publishing (events : List Event)
  | sending (event : Event) (rest : List Event)

/-- The events a call has not done with. -/
def Phase.events : Phase → List Event
  | .executing _ _ => []
  | .publishing events => events
  | .sending event rest => event :: rest

/-- A call in progress. -/
structure Writer (ι : Type) where
  node : ι
  call : Call
  phase : Phase

/-! ### Listening -/

/-- A watch: its prefix, and the number of messages its node had handled when it began. -/
structure Watch where
  keyPrefix : GoString
  since : ℕ
  deriving DecidableEq

/-- The side of a node that listens: the messages of its subscription, its watchers with their
channels and what was received from these, the watches that were cancelled and those that an
event was dropped for, and whether the storage is closed and `processPubSubMessages` goes on. -/
structure Listener where
  reader : Feed.Reader Json
  watchers : Registry GoString
  watches : List Watch
  channels : Channels Received
  received : ℕ → List Received
  cancelled : Finset ℕ
  dropped : Finset ℕ
  closed : Bool
  running : Bool

/-- What a listener does: a watch begins, is cancelled or receives an event, the ticker fires and
the next message has arrived or not, the message taken is handled, or the storage is closed.  The
map of the watchers is visited in the given orders. -/
inductive Listening where
  | watch (keyPrefix : GoString)
  | cancel (w : ℕ)
  | receive (w : ℕ)
  | tick (arrived : Bool)
  | handle (order : List GoString)
  | close (order : List GoString)
  deriving DecidableEq

namespace Listener

/-- `NewRedisStorage`, when `n` messages have gone to the node before. -/
def subscribe (n : ℕ) : Listener where
  reader := .subscribe n
  watchers := ∅
  watches := []
  channels := ⟨fun _ => Chan.make 0, []⟩
  received := fun _ => []
  cancelled := ∅
  dropped := ∅
  closed := false
  running := true

/-- The channels of the watchers that an event is for. -/
def targets (l : Listener) (key : GoString) (order : List GoString) : List ℕ :=
  l.watchers.channels (order.filter (fun keyPrefix => GoString.hasPrefix key keyPrefix))

/-- `notifyWatchers` of a storage that is not closed: the event is dropped for a channel that is
full. -/
def notifyWatchers (l : Listener) (e : Received) (order : List GoString) : Listener :=
  let targets := l.targets e.key order
  { l with
    channels := targets.foldl (fun c w => c.trySend w e) l.channels
    dropped := l.dropped ∪ (targets.filter (fun w => (l.channels.chan w).sendBlocks)).toFinset }

/-- A message reaches the subscription. -/
def deliver (l : Listener) (message : Json) : Listener :=
  { l with reader := l.reader.deliver message }

/-- The next message is received. -/
def take (l : Listener) (message : Json) (rest : List Json) : Listener :=
  { l with reader := l.reader.take message rest }

/-- The message taken has been handled. -/
def finish (l : Listener) : Listener := { l with reader := l.reader.finish }

/-- `Watch`, of a storage that is not closed. -/
def watch (l : Listener) (keyPrefix : GoString) : Listener :=
  { l with
    watchers := MultiMap.add l.watchers keyPrefix l.watches.length
    watches := l.watches ++ [⟨keyPrefix, l.reader.position⟩]
    channels := l.channels.set l.watches.length (Chan.make watchChannelSize)
    received := Function.update l.received l.watches.length [] }

/-- The context of a watch is cancelled. -/
def cancel (l : Listener) (w : ℕ) (keyPrefix : GoString) : Listener :=
  let r := RedisStorage.removeWatcherAndClose l.watchers l.channels keyPrefix w
  { l with watchers := r.1, channels := r.2, cancelled := insert w l.cancelled }

/-- An event is received from a channel. -/
def receive (l : Listener) (w : ℕ) (e : Received) (ch : Chan Received) : Listener :=
  { l with
    channels := l.channels.set w ch
    received := Function.update l.received w (l.received w ++ [e]) }

/-- `Close`, of a storage that is not closed. -/
def close (l : Listener) (order : List GoString) : Listener :=
  let r := RedisStorage.closeAllWatchers l.watchers l.channels order
  { l with watchers := r.1, channels := r.2, closed := true }

/-- `processPubSubMessages` returns. -/
def stop (l : Listener) : Listener := { l with running := false }

/-- One step of a listener. -/
def step (nodeID : GoString) (l : Listener) : Listening → Option Listener
  | .watch keyPrefix => if l.closed then some l else some (l.watch keyPrefix)
  | .cancel w =>
    match l.watches[w]? with
    | some watch => if w ∈ l.cancelled then none else some (l.cancel w watch.keyPrefix)
    | none => none
  | .receive w =>
    match (l.channels.chan w).receive with
    | .received e ch => some (l.receive w e ch)
    | _ => none
  | .tick arrived =>
    if l.running ∧ l.reader.current = none then
      if l.closed then some l.stop
      else if arrived then
        match l.reader.inbox with
        | [] => none
        | message :: rest => some (l.take message rest)
      else some l
    else none
  | .handle order =>
    match l.reader.current with
    | some message =>
      match handlePubSubMessage nodeID message with
      | none => some l.finish
      | some e =>
        if l.closed then some l.finish
        else if order.Perm l.watchers.keys then some (l.notifyWatchers e order).finish
        else none
    | none => none
  | .close order =>
    if l.closed then some l
    else if order.Perm l.watchers.keys then some (l.close order)
    else none

/-- What a watcher has got: the events received and those in its buffer. -/
def delivered (l : Listener) (w : ℕ) : List Received :=
  l.received w ++ (l.channels.chan w).buffer

end Listener

/-! ### The nodes together -/

/-- A message the server has passed on: the node that published it, its event, and the nodes that
it reaches, those that will receive it over the connection they have. -/
structure Publication (ι : Type) where
  node : ι
  event : Event
  reaches : ι → Bool

/-- The keys of the server, the calls in progress, the messages the server has passed on so far,
and the listeners. -/
structure State (ι : Type) where
  store : Redis.Keyspace GoString
  writers : GoMap ℕ (Writer ι)
  log : List (Publication ι)
  listener : ι → Option Listener

/-- The messages that reach a node. -/
def State.feed {ι : Type} (s : State ι) (i : ι) : List (Publication ι) :=
  s.log.filter (fun p => p.reaches i)

/-- The identifier of a node and the prefix of its keys. -/
structure NodeConfig where
  nodeID : GoString
  keyPrefix : GoString

/-- What happens: a node subscribes; a call begins, has a command executed, makes its events,
enters `publishStateEvent` with the next one, and leaves it again, with an answer or without; the
server passes on the message a call has sent, which it does again if the client sends it again; a
call returns, which it also does if a command fails; or a listener does something. -/
inductive Action (ι : Type) where
  | subscribe (i : ι)
  | call (id : ℕ) (i : ι) (c : Call) (order : List (GoString × GoString))
  | exec (id : ℕ) (now : ℤ)
  | announce (id : ℕ) (timestamp : ℤ) (order : List (GoString × GoString))
  | send (id : ℕ)
  | publish (id : ℕ) (reaches : ι → Bool)
  | sent (id : ℕ)
  | ret (id : ℕ)
  | listen (i : ι) (a : Listening)

section

variable {ι : Type} [DecidableEq ι]

/-- The server passes on a message. -/
def State.publish (s : State ι) (p : Publication ι) : State ι :=
  { s with
    log := s.log ++ [p]
    listener := fun j =>
      (s.listener j).map (fun l => if p.reaches j then l.deliver (payload p.event) else l) }

/-- A call goes on. -/
def State.setWriter (s : State ι) (id : ℕ) (writer : Writer ι) : State ι :=
  { s with writers := s.writers.insert id writer }

/-- A listener has changed. -/
def State.setListener (s : State ι) (i : ι) (l : Listener) : State ι :=
  { s with listener := Function.update s.listener i (some l) }

theorem State.listener_setListener (s : State ι) (i : ι) (l : Listener) (j : ι) :
  (s.setListener i l).listener j = if j = i then some l else s.listener j
  := Function.update_apply s.listener i (some l) j

/-- The phase of a call that enters `publishStateEvent`, of a storage that is closed or not. -/
def sendPhase (closed : Bool) (e : Event) (rest : List Event) : Phase :=
  if closed then .publishing rest else .sending e rest

/-- One step of the nodes. -/
def step (config : ι → NodeConfig) (s : State ι) : Action ι → Option (State ι)
  | .subscribe i =>
    match s.listener i with
    | none => some (s.setListener i (.subscribe (s.feed i).length))
    | some _ => none
  | .call id i c order =>
    match s.writers.lookup id, s.listener i, c.writes order with
    | none, some l, some todo =>
      if l.closed then some s
      else some (s.setWriter id ⟨i, c, .executing todo false⟩)
    | _, _, _ => none
  | .exec id now =>
    match s.writers.lookup id with
    | some ⟨i, c, .executing (write :: todo) deleted⟩ =>
      let s' := { s with store := exec (config i).keyPrefix s.store now write }
      some (s'.setWriter id
        ⟨i, c, .executing todo (deleted || deletes (config i).keyPrefix s.store now write)⟩)
    | _ => none
  | .announce id timestamp order =>
    match s.writers.lookup id with
    | some ⟨i, c, .executing [] deleted⟩ =>
      (eventsOf (config i).nodeID timestamp order deleted c).map (fun events =>
        s.setWriter id ⟨i, c, .publishing events⟩)
    | _ => none
  | .send id =>
    match s.writers.lookup id with
    | some ⟨i, c, .publishing (e :: rest)⟩ =>
      some (s.setWriter id ⟨i, c, sendPhase ((s.listener i).any Listener.closed) e rest⟩)
    | _ => none
  | .publish id reaches =>
    match s.writers.lookup id with
    | some ⟨i, _, .sending e _⟩ => some (s.publish ⟨i, e, reaches⟩)
    | _ => none
  | .sent id =>
    match s.writers.lookup id with
    | some ⟨i, c, .sending _ rest⟩ => some (s.setWriter id ⟨i, c, .publishing rest⟩)
    | _ => none
  | .ret id =>
    match s.writers.lookup id with
    | some ⟨_, _, .executing _ _⟩ => some { s with writers := s.writers.erase id }
    | some ⟨_, _, .publishing []⟩ => some { s with writers := s.writers.erase id }
    | _ => none
  | .listen i a =>
    match s.listener i with
    | some l => (l.step (config i).nodeID a).map (s.setListener i)
    | none => none

/-- The runs of the nodes. -/
def machine (config : ι → NodeConfig) : Machine (State ι) (Action ι) := ⟨step config⟩

/-- No node yet. -/
def start (store : Redis.Keyspace GoString) : State ι := ⟨store, ∅, [], fun _ => none⟩

end

/-! ### What a watcher is to get -/

/-- What a node with an identifier tells a watcher of a prefix of a published event. -/
def heard (nodeID keyPrefix : GoString) (e : Event) : Option Received :=
  (handlePubSubMessage nodeID (payload e)).filter (fun r => GoString.hasPrefix r.key keyPrefix)

namespace Listener

variable {ι : Type}

/-- What a watcher is to get of the messages handled so far. -/
def due (nodeID : GoString) (feed : List (Publication ι)) (l : Listener) (watch : Watch) :
    List Received :=
  (Feed.between feed watch.since l.reader.position).filterMap
    (fun p => heard nodeID watch.keyPrefix p.event)

/-- A watch that goes on. -/
def Watching (l : Listener) (w : ℕ) : Prop :=
  w < l.watches.length ∧ w ∉ l.cancelled ∧ l.closed = false

/-- A watcher has got a part of what it is to get, in order, and all of it while the watch goes on
and no event was dropped for it. -/
structure Gets (nodeID : GoString) (feed : List (Publication ι)) (l : Listener) (w : ℕ)
    (watch : Watch) : Prop where
  sublist : (l.delivered w).Sublist (l.due nodeID feed watch)
  all : l.Watching w → w ∉ l.dropped → l.delivered w = l.due nodeID feed watch

/-- What holds of the listener of a node: it follows the messages that reach it, it goes on while
the storage is not closed, it lists the watches that go on and has their channels open, and its
watchers get what they are to get. -/
structure Sound (nodeID : GoString) (feed : List (Publication ι)) (l : Listener) : Prop where
  follows : l.reader.Follows (feed.map (fun p => payload p.event))
  running : l.closed = false → l.running = true
  cancelled : ∀ w ∈ l.cancelled, w < l.watches.length
  registered :
    l.closed = false → Registered (l.watches.map Watch.keyPrefix) l.cancelled l.watchers
  unclosed : ∀ w, l.Watching w → (l.channels.chan w).closed = false
  since : ∀ watch ∈ l.watches, watch.since ≤ l.reader.position
  gets : ∀ w watch, l.watches[w]? = some watch → l.Gets nodeID feed w watch

section

variable {nodeID : GoString} {feed : List (Publication ι)} {l l' : Listener}

theorem Sound.position_le (h : l.Sound nodeID feed) :
  l.reader.position ≤ feed.length
  := by
  have hle := h.follows.le
  rwa [List.length_map] at hle

theorem sound_subscribe :
  (subscribe feed.length).Sound nodeID feed
  := by
  have hempty : Registered [] ∅ (∅ : Registry GoString) := by
    refine ⟨Registry.proper_empty, ?_⟩
    intro w
    apply iff_of_false (Registry.not_lists_empty w)
    rintro ⟨⟨⟩, -⟩
  have hfollows := Feed.Reader.follows_subscribe (feed.map (fun p => payload p.event))
  rw [List.length_map] at hfollows
  refine ⟨hfollows, fun _ => rfl, ?_, fun _ => hempty, ?_, ?_, ?_⟩
  · intro w hw
    exact absurd hw (Finset.notMem_empty w)
  · rintro w ⟨hw, -, -⟩
    cases hw
  · intro watch hwatch
    cases hwatch
  · intro w watch hw
    cases hw

/-- A message reaches the node. -/
theorem Sound.deliver (h : l.Sound nodeID feed) (p : Publication ι) :
  (l.deliver (payload p.event)).Sound nodeID (feed ++ [p])
  := by
  have hdue : ∀ watch, (l.deliver (payload p.event)).due nodeID (feed ++ [p]) watch
      = l.due nodeID feed watch := by
    intro watch
    rw [due, due, ← Feed.between_append h.position_le watch.since [p]]
    rfl
  refine ⟨?_, h.running, h.cancelled, h.registered, h.unclosed, h.since, ?_⟩
  · rw [List.map_append]
    apply h.follows.deliver
  · intro w watch hw
    obtain ⟨hsublist, hall⟩ := h.gets w watch hw
    constructor
    · rw [hdue]
      apply hsublist
    · rw [hdue]
      apply hall

variable {w : ℕ} {entry : Watch}

/-- What a watcher has got may get less, and stays all if the watch goes on. -/
theorem Gets.shrink (h : l.Gets nodeID feed w entry)
    (hposition : l'.reader.position = l.reader.position)
    (hsublist : (l'.delivered w).Sublist (l.delivered w))
    (hall : l'.Watching w → w ∉ l'.dropped →
      l.Watching w ∧ w ∉ l.dropped ∧ l'.delivered w = l.delivered w) :
  l'.Gets nodeID feed w entry
  := by
  have hdue : l'.due nodeID feed entry = l.due nodeID feed entry := by
    rw [due, due, hposition]
  constructor
  · rw [hdue]
    apply hsublist.trans h.sublist
  · intro hwatching hkept
    obtain ⟨hbefore, hnot, hsame⟩ := hall hwatching hkept
    rw [hdue, hsame]
    apply h.all hbefore hnot

theorem Sound.watching_of_lists (h : l.Sound nodeID feed) (hopen : l.closed = false)
    (hlists : l.watchers.Lists w) :
  l.Watching w
  := by
  obtain ⟨hlt, hnot⟩ := ((h.registered hopen).lists w).mp hlists
  rw [List.length_map] at hlt
  exact ⟨hlt, hnot, hopen⟩

theorem delivered_watch (l : Listener) (keyPrefix : GoString) (w : ℕ) :
  (l.watch keyPrefix).delivered w = if w = l.watches.length then [] else l.delivered w
  := by
  rw [delivered, watch, Channels.chan_set]
  dsimp only
  rw [Function.update_apply]
  split_ifs
  · rfl
  · rfl

/-- A watch begins. -/
theorem Sound.watch (h : l.Sound nodeID feed) (hopen : l.closed = false) (keyPrefix : GoString) :
  (l.watch keyPrefix).Sound nodeID feed
  := by
  have hlength : (l.watch keyPrefix).watches.length = l.watches.length + 1 := by
    rw [Listener.watch, List.length_append, List.length_singleton]
  have hcancelled : ∀ w ∈ l.cancelled, w < (l.watches.map Watch.keyPrefix).length := by
    intro w hw
    rw [List.length_map]
    apply h.cancelled w hw
  have hregistered := (h.registered hopen).watch hcancelled keyPrefix
  rw [List.length_map] at hregistered
  refine ⟨h.follows, h.running, ?_, ?_, ?_, ?_, ?_⟩
  · intro w hw
    rw [hlength]
    apply Nat.lt_add_right _ (h.cancelled w hw)
  · intro _
    rw [Listener.watch, List.map_append]
    apply hregistered
  · rintro w ⟨hw, hnot, -⟩
    rw [hlength] at hw
    rw [Listener.watch, Channels.chan_set]
    split_ifs with hnew
    · rfl
    · apply h.unclosed w ⟨lt_of_le_of_ne (Nat.lt_succ_iff.mp hw) hnew, hnot, hopen⟩
  · intro entry hentry
    rcases List.mem_append.mp hentry with hold | hnew
    · apply h.since entry hold
    · rw [List.mem_singleton.mp hnew]
      rfl
  · intro w entry hw
    rw [Listener.watch] at hw
    by_cases hnew : w = l.watches.length
    · subst hnew
      rw [List.getElem?_concat_length] at hw
      obtain rfl := Option.some.inj hw
      have hdelivered := l.delivered_watch keyPrefix l.watches.length
      rw [if_pos rfl] at hdelivered
      have hdue : (l.watch keyPrefix).due nodeID feed ⟨keyPrefix, l.reader.position⟩ = [] := by
        rw [due, Listener.watch, Feed.between_self]
        rfl
      exact ⟨hdelivered ▸ List.nil_sublist _, fun _ _ => hdelivered.trans hdue.symm⟩
    · have hlt := (List.getElem?_eq_some_iff.mp hw).1
      rw [List.length_append, List.length_singleton] at hlt
      have hold := lt_of_le_of_ne (Nat.lt_succ_iff.mp hlt) hnew
      rw [List.getElem?_append_left hold] at hw
      have hdelivered := l.delivered_watch keyPrefix w
      rw [if_neg hnew] at hdelivered
      refine (h.gets w entry hw).shrink ?_ ?_ ?_
      · rfl
      · rw [hdelivered]
      · rintro ⟨-, hnot, -⟩ hkept
        exact ⟨⟨hold, hnot, hopen⟩, hkept, hdelivered⟩

/-- The channels after a watch is cancelled: its own may be polled. -/
theorem chan_cancel (l : Listener) (w : ℕ) (keyPrefix : GoString) (w' : ℕ) :
  ∃ n, (l.cancel w keyPrefix).channels.chan w' = Chan.pollClose^[n] (l.channels.chan w') ∧
    (w' ≠ w → n = 0)
  := by
  rw [cancel, RedisStorage.removeWatcherAndClose]
  cases l.watchers.lookup keyPrefix with
  | none => exact ⟨0, rfl, fun _ => rfl⟩
  | some channels =>
    dsimp only
    rw [Channels.chan_pollClose]
    split_ifs with hw
    · exact ⟨1, by rw [hw]; rfl, fun hne => absurd hw hne⟩
    · exact ⟨0, rfl, fun _ => rfl⟩

/-- A watch is cancelled. -/
theorem Sound.cancel (h : l.Sound nodeID feed) (hw : l.watches[w]? = some entry)
    (hnot : w ∉ l.cancelled) :
  (l.cancel w entry.keyPrefix).Sound nodeID feed
  := by
  have hlt := (List.getElem?_eq_some_iff.mp hw).1
  have hkey : (l.watches.map Watch.keyPrefix)[w]? = some entry.keyPrefix := by
    rw [List.getElem?_map, hw]
    rfl
  refine ⟨h.follows, h.running, ?_, ?_, ?_, h.since, ?_⟩
  · exact Finset.forall_mem_insert .. |>.mpr ⟨hlt, h.cancelled⟩
  · intro hopen
    have hregistered := h.registered hopen
    have hlisted := hregistered.lookup_ne_none hkey hnot
    rw [Listener.cancel, RedisStorage.removeWatcherAndClose]
    cases hlookup : l.watchers.lookup entry.keyPrefix with
    | none => exact absurd hlookup hlisted
    | some channels => apply hregistered.cancel hkey
  · rintro w' ⟨hw', hnot', hopen⟩
    obtain ⟨hne, hnot'⟩ := not_or.mp (mt Finset.mem_insert.mpr hnot')
    obtain ⟨n, hchan, hn⟩ := l.chan_cancel w entry.keyPrefix w'
    rw [hchan, hn hne]
    apply h.unclosed w' ⟨hw', hnot', hopen⟩
  · intro w' entry' hw'
    obtain ⟨n, hchan, hn⟩ := l.chan_cancel w entry.keyPrefix w'
    refine (h.gets w' entry' hw').shrink ?_ ?_ ?_
    · rfl
    · rw [delivered, hchan]
      apply List.Sublist.append_left
      apply Chan.sublist_iterate_pollClose
    · rintro ⟨hlt', hnot', hopen⟩ hkept
      obtain ⟨hne, hnot'⟩ := not_or.mp (mt Finset.mem_insert.mpr hnot')
      refine ⟨⟨hlt', hnot', hopen⟩, hkept, ?_⟩
      rw [delivered, hchan, hn hne]
      rfl

/-- An event is received. -/
theorem Sound.receive (h : l.Sound nodeID feed) {e : Received} {ch : Chan Received}
    (hreceived : (l.channels.chan w).receive = .received e ch) :
  (l.receive w e ch).Sound nodeID feed
  := by
  have hdelivered : ∀ w', (l.receive w e ch).delivered w' = l.delivered w' := by
    intro w'
    rw [delivered, Listener.receive, Channels.chan_set]
    dsimp only
    rw [Function.update_apply, delivered]
    split_ifs with hw'
    · rw [hw', Chan.buffer_of_received hreceived, List.append_assoc]
      rfl
    · rfl
  refine ⟨h.follows, h.running, h.cancelled, h.registered, ?_, h.since, ?_⟩
  · intro w' hw'
    rw [Listener.receive, Channels.closed_set (Chan.closed_of_received hreceived)]
    apply h.unclosed w' hw'
  · intro w' entry hw'
    refine (h.gets w' entry hw').shrink ?_ ?_ ?_
    · rfl
    · rw [hdelivered]
    · intro hwatching hkept
      exact ⟨hwatching, hkept, hdelivered w'⟩

/-- The storage is closed. -/
theorem Sound.close (h : l.Sound nodeID feed) (order : List GoString) :
  (l.close order).Sound nodeID feed
  := by
  refine ⟨h.follows, (nomatch ·), h.cancelled, (nomatch ·), ?_, h.since, ?_⟩
  · rintro w ⟨-, -, ⟨⟩⟩
  · intro w entry hw
    refine (h.gets w entry hw).shrink ?_ ?_ ?_
    · rfl
    · rw [delivered, Listener.close, RedisStorage.closeAllWatchers]
      dsimp only
      rw [Channels.chan_pollCloseAll]
      apply List.Sublist.append_left
      apply Chan.sublist_iterate_pollClose
    · rintro ⟨-, -, ⟨⟩⟩

/-- The next message is received. -/
theorem Sound.take (h : l.Sound nodeID feed) (hidle : l.reader.current = none) {message : Json}
    {rest : List Json} (hinbox : l.reader.inbox = message :: rest) :
  (l.take message rest).Sound nodeID feed
  := by
  refine ⟨h.follows.take hidle hinbox, h.running, h.cancelled, h.registered, h.unclosed, h.since,
    ?_⟩
  intro w entry hw
  apply Gets.shrink (h.gets w entry hw)
  · rfl
  · apply List.Sublist.refl
  · intro hwatching hkept
    exact ⟨hwatching, hkept, rfl⟩

/-- The node stops to listen. -/
theorem Sound.stop (h : l.Sound nodeID feed) (hclosed : l.closed = true) :
  l.stop.Sound nodeID feed
  := by
  have hnotOpen : ¬ l.closed = false := by
    rw [hclosed]
    decide
  refine ⟨h.follows, (absurd · hnotOpen), h.cancelled, h.registered, h.unclosed, h.since, ?_⟩
  intro w entry hw
  apply Gets.shrink (h.gets w entry hw)
  · rfl
  · apply List.Sublist.refl
  · intro hwatching hkept
    exact ⟨hwatching, hkept, rfl⟩

/-! ### Handling a message -/

variable {message : Json}

/-- What a watcher is to get of the message that has been handled. -/
theorem due_finish (l' : Listener) (h : l.Sound nodeID feed)
    (hmessage : l.reader.current = some message) (hreader : l'.reader = l.reader.finish)
    (hentry : entry ∈ l.watches) :
  l'.due nodeID feed entry
    = l.due nodeID feed entry ++ ((handlePubSubMessage nodeID message).filter
        (fun r => GoString.hasPrefix r.key entry.keyPrefix)).toList
  := by
  have hnext := h.follows.getElem?_position hmessage
  rw [List.getElem?_map, Option.map_eq_some_iff] at hnext
  obtain ⟨p, hp, rfl⟩ := hnext
  rw [due, hreader, Feed.Reader.finish, Feed.between_succ (h.since entry hentry) hp,
    List.filterMap_append, due, List.filterMap_cons, heard]
  cases Option.filter _ (handlePubSubMessage nodeID (payload p.event)) with
  | none => rfl
  | some e => rfl

theorem Sound.since_finish (h : l.Sound nodeID feed) :
  ∀ entry ∈ l.watches, entry.since ≤ l.reader.finish.position
  := by
  intro entry hentry
  apply Nat.le_succ_of_le (h.since entry hentry)

/-- A message is handled that no watcher is notified of. -/
theorem Sound.finish (h : l.Sound nodeID feed) (hmessage : l.reader.current = some message)
    (hskipped : handlePubSubMessage nodeID message = none ∨ l.closed = true) :
  l.finish.Sound nodeID feed
  := by
  refine ⟨h.follows.finish hmessage, h.running, h.cancelled, h.registered, h.unclosed,
    h.since_finish, ?_⟩
  intro w entry hw
  have hgets := h.gets w entry hw
  have hdue := due_finish l.finish h hmessage rfl (List.mem_of_getElem? hw)
  constructor
  · rw [hdue]
    apply hgets.sublist.trans
    apply List.sublist_append_left
  · rintro ⟨hlt, hnot, hopen⟩ hkept
    rcases hskipped with hnone | hclosed
    · rw [hdue, hnone, Option.filter_none, Option.toList_none, List.append_nil]
      apply hgets.all ⟨hlt, hnot, hopen⟩ hkept
    · exact absurd (hopen.symm.trans hclosed) Bool.false_ne_true

/-- The watchers that are notified are those of the prefixes of the key. -/
theorem mem_targets (h : l.Sound nodeID feed) (hw : l.watches[w]? = some entry)
    (hwatching : l.Watching w) {order : List GoString} (horder : order.Perm l.watchers.keys)
    (key : GoString) :
  w ∈ l.targets key order ↔ GoString.hasPrefix key entry.keyPrefix = true
  := by
  have hregistered := h.registered hwatching.2.2
  have hkey : (l.watches.map Watch.keyPrefix)[w]? = some entry.keyPrefix := by
    rw [List.getElem?_map, hw]
    rfl
  rw [targets, Registry.channels, List.mem_flatMap]
  constructor
  · rintro ⟨keyPrefix, hmem, hvalues⟩
    have hsame := (hregistered.proper keyPrefix).2 w hvalues
    obtain rfl := Option.some.inj (hsame.symm.trans hkey)
    apply (List.mem_filter.mp hmem).2
  · intro hprefix
    have hvalues := hregistered.mem_values hkey hwatching.2.1
    refine ⟨entry.keyPrefix, List.mem_filter.mpr ⟨?_, hprefix⟩, hvalues⟩
    rw [horder.mem_iff]
    by_contra hnotMem
    rw [MultiMap.values, AList.lookup_eq_none.mpr hnotMem] at hvalues
    cases hvalues

theorem Sound.nodup_targets (h : l.Sound nodeID feed) (hopen : l.closed = false)
    {order : List GoString} (horder : order.Perm l.watchers.keys) (key : GoString) :
  (l.targets key order).Nodup
  := by
  apply Registry.nodup_channels (h.registered hopen).proper
  apply List.Nodup.filter
  apply horder.nodup_iff.mpr l.watchers.keys_nodup

/-- The channel of a watcher after it was notified. -/
theorem chan_notifyWatchers (h : l.Sound nodeID feed) (hopen : l.closed = false)
    {order : List GoString} (horder : order.Perm l.watchers.keys) (e : Received) (w : ℕ) :
  (l.notifyWatchers e order).channels.chan w
    = if w ∈ l.targets e.key order then (l.channels.chan w).trySend e else l.channels.chan w
  := Channels.chan_foldl_trySend (h.nodup_targets hopen horder e.key) e w

/-- A message is handled, and the watchers are notified of its event. -/
theorem Sound.notifyWatchers (h : l.Sound nodeID feed) (hmessage : l.reader.current = some message)
    {e : Received} (he : handlePubSubMessage nodeID message = some e) (hopen : l.closed = false)
    {order : List GoString} (horder : order.Perm l.watchers.keys) :
  (l.notifyWatchers e order).finish.Sound nodeID feed
  := by
  have hchan := chan_notifyWatchers h hopen horder e
  refine ⟨h.follows.finish hmessage, h.running, h.cancelled, h.registered, ?_, h.since_finish, ?_⟩
  · intro w hw
    rw [Listener.finish, hchan]
    split_ifs
    · apply (Chan.trySend_of_open (h.unclosed w hw) e).1
    · apply h.unclosed w hw
  · intro w entry hw
    have hgets := h.gets w entry hw
    have hdue := due_finish (l.notifyWatchers e order).finish h hmessage rfl
      (List.mem_of_getElem? hw)
    rw [he] at hdue
    by_cases htarget : w ∈ l.targets e.key order
    · have hlisted : l.watchers.Lists w := Registry.mem_channels htarget
      have hwatching := h.watching_of_lists hopen hlisted
      have hprefix := (mem_targets h hw hwatching horder e.key).mp htarget
      rw [Option.filter_some, if_pos hprefix, Option.toList_some] at hdue
      have hdelivered : (l.notifyWatchers e order).finish.delivered w
          = if (l.channels.chan w).sendBlocks then l.delivered w else l.delivered w ++ [e] := by
        rw [delivered, Listener.finish, hchan, if_pos htarget,
          (Chan.trySend_of_open (h.unclosed w hwatching) e).2, delivered]
        split_ifs
        · rfl
        · rw [List.append_assoc]
          rfl
      constructor
      · rw [hdue, hdelivered]
        split_ifs
        · apply hgets.sublist.trans (List.sublist_append_left _ _)
        · apply hgets.sublist.append_right _
      · intro _ hkept
        obtain ⟨hnot, hroom⟩ := not_or.mp (mt Finset.mem_union.mpr hkept)
        have hfits : ¬ (l.channels.chan w).sendBlocks = true := by
          intro hfull
          apply hroom
          rw [List.mem_toFinset, List.mem_filter]
          exact ⟨htarget, hfull⟩
        rw [hdue, hdelivered, if_neg hfits, hgets.all hwatching hnot]
    · have hdelivered : (l.notifyWatchers e order).finish.delivered w = l.delivered w := by
        rw [delivered, Listener.finish, hchan, if_neg htarget]
        rfl
      constructor
      · rw [hdue, hdelivered]
        apply hgets.sublist.trans (List.sublist_append_left _ _)
      · intro hwatching hkept
        have hprefix := mt (mem_targets h hw hwatching horder e.key).mpr htarget
        rw [hdue, hdelivered, Option.filter_some, if_neg hprefix, Option.toList_none,
          List.append_nil]
        apply hgets.all hwatching
        intro hdropped
        apply hkept (Finset.mem_union_left _ hdropped)

/-! ### Any step -/

theorem Sound.step (h : l.Sound nodeID feed) {a : Listening} (hstep : l.step nodeID a = some l') :
  l'.Sound nodeID feed
  := by
  cases a with
  | watch keyPrefix =>
    rw [Listener.step] at hstep
    split_ifs at hstep with hclosed
    · apply Option.some.inj hstep ▸ h
    · rw [Bool.not_eq_true] at hclosed
      apply Option.some.inj hstep ▸ h.watch hclosed keyPrefix
  | cancel w =>
    rw [Listener.step] at hstep
    split at hstep
    · rename_i entry hw
      split_ifs at hstep with hnot
      apply Option.some.inj hstep ▸ h.cancel hw hnot
    · cases hstep
  | receive w =>
    rw [Listener.step] at hstep
    split at hstep
    · rename_i e ch hreceived
      apply Option.some.inj hstep ▸ h.receive hreceived
    · cases hstep
  | tick arrived =>
    rw [Listener.step] at hstep
    split_ifs at hstep with hready hclosed harrived
    · apply Option.some.inj hstep ▸ h.stop hclosed
    · split at hstep
      · cases hstep
      · rename_i message rest hinbox
        apply Option.some.inj hstep ▸ h.take hready.2 hinbox
    · apply Option.some.inj hstep ▸ h
  | handle order =>
    rw [Listener.step] at hstep
    split at hstep
    · rename_i message hmessage
      split at hstep
      · rename_i hnone
        apply Option.some.inj hstep ▸ h.finish hmessage (.inl hnone)
      · rename_i e he
        split_ifs at hstep with hclosed horder
        · apply Option.some.inj hstep ▸ h.finish hmessage (.inr hclosed)
        · rw [Bool.not_eq_true] at hclosed
          apply Option.some.inj hstep ▸ h.notifyWatchers hmessage he hclosed horder
    · cases hstep
  | close order =>
    rw [Listener.step] at hstep
    split_ifs at hstep with hclosed
    · apply Option.some.inj hstep ▸ h
    · apply Option.some.inj hstep ▸ h.close order

end

end Listener

/-! ### Any run -/

section

variable {ι : Type} [DecidableEq ι] {config : ι → NodeConfig} {s t : State ι}

/-- An event of a node bears its identifier. -/
def Publishes (config : ι → NodeConfig) (i : ι) (e : Event) : Prop := e.nodeID = (config i).nodeID

/-- What holds of the nodes together: they publish events of their own, and their listeners are
sound. -/
structure Sound (config : ι → NodeConfig) (s : State ι) : Prop where
  writers : ∀ id writer, s.writers.lookup id = some writer →
    ∀ e ∈ writer.phase.events, Publishes config writer.node e
  log : ∀ p ∈ s.log, Publishes config p.node p.event
  listener : ∀ i l, s.listener i = some l → l.Sound (config i).nodeID (s.feed i)

omit [DecidableEq ι] in
theorem sound_start (store : Redis.Keyspace GoString) :
  Sound config (start store)
  := by
  refine ⟨?_, List.forall_mem_nil _, ?_⟩
  · intro id writer hlookup
    cases hlookup
  · intro i l hl
    cases hl

omit [DecidableEq ι] in
theorem publishes_of_eventsOf {i : ι} {timestamp : ℤ} {order : List (GoString × GoString)}
    {deleted : Bool} {c : Call} {events : List Event}
    (h : eventsOf (config i).nodeID timestamp order deleted c = some events) :
  ∀ e ∈ events, Publishes config i e
  := by
  intro e he
  rw [eventsOf.eq_def] at h
  split at h
  · obtain rfl := Option.some.inj h
    cases he
  · obtain ⟨writes, -, rfl⟩ := Option.map_eq_some_iff.mp h
    obtain ⟨write, -, rfl⟩ := List.mem_map.mp he
    cases write with
    | set key value ttl => rfl
    | delete key => rfl

/-! ### The kinds of steps -/

/-- The calls have changed, and nothing else that the listeners see: an event a call is to publish
is one of its node, or the call was to publish it before. -/
structure CallsGoOn (config : ι → NodeConfig) (s t : State ι) : Prop where
  log : t.log = s.log
  listener : t.listener = s.listener
  writers : ∀ id writer, t.writers.lookup id = some writer → ∀ e ∈ writer.phase.events,
    Publishes config writer.node e ∨
      ∃ before, s.writers.lookup id = some before ∧ before.node = writer.node ∧
        e ∈ before.phase.events

omit [DecidableEq ι] in
theorem CallsGoOn.refl (config : ι → NodeConfig) (s : State ι) :
  CallsGoOn config s s
  := by
  refine ⟨rfl, rfl, ?_⟩
  intro id writer hlookup e he
  right
  use writer

omit [DecidableEq ι] in
/-- A call goes on, and may have executed a command. -/
theorem CallsGoOn.setWriter {id : ℕ} {writer : Writer ι} (store : Redis.Keyspace GoString)
    (h : ∀ e ∈ writer.phase.events, Publishes config writer.node e ∨
      ∃ before, s.writers.lookup id = some before ∧ before.node = writer.node ∧
        e ∈ before.phase.events) :
  CallsGoOn config s (({ s with store := store } : State ι).setWriter id writer)
  := by
  refine ⟨rfl, rfl, ?_⟩
  intro id' writer' hlookup
  rcases GoMap.lookup_insert_eq_some.mp hlookup with ⟨rfl, rfl⟩ | ⟨-, hold⟩
  · apply h
  · apply (CallsGoOn.refl config s).writers id' writer' hold

omit [DecidableEq ι] in
/-- A call goes on with events it had before. -/
theorem CallsGoOn.setPhase {id : ℕ} {i : ι} {c : Call} {phase phase' : Phase}
    (hlookup : s.writers.lookup id = some ⟨i, c, phase⟩)
    (h : phase'.events ⊆ phase.events) :
  CallsGoOn config s (s.setWriter id ⟨i, c, phase'⟩)
  := by
  apply CallsGoOn.setWriter s.store
  intro e he
  right
  use ⟨i, c, phase⟩, hlookup, rfl, h he

omit [DecidableEq ι] in
/-- A call returns. -/
theorem CallsGoOn.erase (config : ι → NodeConfig) (s : State ι) (id : ℕ) :
  CallsGoOn config s { s with writers := s.writers.erase id }
  := by
  refine ⟨rfl, rfl, ?_⟩
  intro id' writer hlookup
  apply (CallsGoOn.refl config s).writers id' writer (GoMap.lookup_erase_eq_some.mp hlookup).2

/-- What a step does: a node subscribes, a message is passed on, a listener does something, or the
calls go on. -/
inductive Effect (config : ι → NodeConfig) (s : State ι) : Action ι → State ι → Prop where
  | subscribed (i : ι) (hnone : s.listener i = none) :
      Effect config s (.subscribe i) (s.setListener i (.subscribe (s.feed i).length))
  | published (id : ℕ) (reaches : ι → Bool) {i : ι} {c : Call} {e : Event} {rest : List Event}
      (hlookup : s.writers.lookup id = some ⟨i, c, .sending e rest⟩) :
      Effect config s (.publish id reaches) (s.publish ⟨i, e, reaches⟩)
  | listened (i : ι) (b : Listening) (l l' : Listener) (hl : s.listener i = some l)
      (hl' : l.step (config i).nodeID b = some l') :
      Effect config s (.listen i b) (s.setListener i l')
  | wrote {a : Action ι} {t : State ι} (h : CallsGoOn config s t) : Effect config s a t

theorem effect_of_step {a : Action ι} (h : (machine config).step s a = some t) :
  Effect config s a t
  := by
  cases a with
  | subscribe i =>
    dsimp only [machine, step] at h
    split at h
    · rename_i hnone
      obtain rfl := Option.some.inj h
      apply Effect.subscribed i hnone
    · cases h
  | call id i c order =>
    dsimp only [machine, step] at h
    split at h
    · apply Effect.wrote
      split_ifs at h with hclosed
      · obtain rfl := Option.some.inj h
        apply CallsGoOn.refl
      · obtain rfl := Option.some.inj h
        apply CallsGoOn.setWriter s.store (List.forall_mem_nil _)
    · cases h
  | exec id now =>
    dsimp only [machine, step] at h
    split at h
    · apply Effect.wrote
      apply Option.some.inj h ▸ CallsGoOn.setWriter _ (List.forall_mem_nil _)
    · cases h
  | announce id timestamp order =>
    dsimp only [machine, step] at h
    split at h
    · obtain ⟨events, hevents, rfl⟩ := Option.map_eq_some_iff.mp h
      apply Effect.wrote
      apply CallsGoOn.setWriter s.store
      intro e he
      apply Or.inl (publishes_of_eventsOf hevents e he)
    · cases h
  | send id =>
    dsimp only [machine, step] at h
    split at h
    · rename_i i c e rest hlookup
      obtain rfl := Option.some.inj h
      apply Effect.wrote
      apply CallsGoOn.setPhase hlookup
      rw [sendPhase]
      split_ifs
      · apply List.subset_cons_self
      · apply List.Subset.refl
    · cases h
  | publish id reaches =>
    dsimp only [machine, step] at h
    split at h
    · rename_i hlookup
      obtain rfl := Option.some.inj h
      apply Effect.published id reaches hlookup
    · cases h
  | sent id =>
    dsimp only [machine, step] at h
    split at h
    · rename_i hlookup
      obtain rfl := Option.some.inj h
      apply Effect.wrote
      apply CallsGoOn.setPhase hlookup
      apply List.subset_cons_self
    · cases h
  | ret id =>
    dsimp only [machine, step] at h
    split at h
    · apply Effect.wrote (Option.some.inj h ▸ CallsGoOn.erase config s id)
    · apply Effect.wrote (Option.some.inj h ▸ CallsGoOn.erase config s id)
    · cases h
  | listen i b =>
    dsimp only [machine, step] at h
    split at h
    · rename_i l hl
      obtain ⟨l', hl', rfl⟩ := Option.map_eq_some_iff.mp h
      apply Effect.listened i b l l' hl hl'
    · cases h

/-! ### What steps keep -/

omit [DecidableEq ι] in
theorem listener_publish (s : State ι) (p : Publication ι) (j : ι) :
  (s.publish p).listener j
    = (s.listener j).map (fun l => if p.reaches j then l.deliver (payload p.event) else l)
  := rfl

omit [DecidableEq ι] in
theorem feed_publish (s : State ι) (p : Publication ι) (j : ι) :
  (s.publish p).feed j = if p.reaches j then s.feed j ++ [p] else s.feed j
  := by
  rw [State.feed, State.publish, List.filter_append, List.filter_singleton]
  cases p.reaches j with
  | false => apply List.append_nil
  | true => rfl

omit [DecidableEq ι] in
/-- A message is passed on. -/
theorem Sound.publish (hs : Sound config s) {p : Publication ι}
    (hp : Publishes config p.node p.event) :
  Sound config (s.publish p)
  := by
  refine ⟨hs.writers, ?_, ?_⟩
  · intro q hq
    rcases List.mem_append.mp hq with hold | hnew
    · apply hs.log q hold
    · rw [List.mem_singleton.mp hnew]
      apply hp
  · intro j l hl
    obtain ⟨l', hl', rfl⟩ := Option.map_eq_some_iff.mp hl
    rw [feed_publish]
    split_ifs
    · apply (hs.listener j l' hl').deliver
    · apply hs.listener j l' hl'

/-- The listener of a node changes. -/
theorem Sound.setListener (hs : Sound config s) {i : ι} {l : Listener}
    (hl : l.Sound (config i).nodeID (s.feed i)) :
  Sound config (s.setListener i l)
  := by
  refine ⟨hs.writers, hs.log, ?_⟩
  intro j k hk
  rw [State.listener_setListener] at hk
  split_ifs at hk with hj
  · subst hj
    apply Option.some.inj hk ▸ hl
  · apply hs.listener j k hk

omit [DecidableEq ι] in
/-- The calls go on. -/
theorem Sound.wrote (hs : Sound config s) (h : CallsGoOn config s t) :
  Sound config t
  := by
  constructor
  · intro id writer hlookup e he
    rcases h.writers id writer hlookup e he with hown | ⟨before, hbefore, hnode, hmem⟩
    · apply hown
    · rw [← hnode]
      apply hs.writers id before hbefore e hmem
  · rw [h.log]
    apply hs.log
  · intro i l hl
    rw [h.listener] at hl
    rw [State.feed, h.log]
    apply hs.listener i l hl

theorem sound_step {a : Action ι} (hs : Sound config s)
    (h : (machine config).step s a = some t) :
  Sound config t
  := by
  cases effect_of_step h with
  | subscribed i hnone => apply hs.setListener Listener.sound_subscribe
  | published id reaches hlookup =>
    apply hs.publish
    apply (List.forall_mem_cons.mp (hs.writers id _ hlookup)).1
  | listened i b l l' hl hl' => apply hs.setListener ((hs.listener i l hl).step hl')
  | wrote hwrote => apply hs.wrote hwrote

theorem sound_run {actions : List (Action ι)} (hs : Sound config s)
    (hrun : (machine config).run s actions = some t) :
  Sound config t
  := by
  have halways := Machine.persists_of_invariant (I := fun _ => True) (P := Sound config)
    (fun _ h => h) (fun _ _ _ hs _ h => sound_step hs h) hs actions (fun _ _ => trivial)
  apply halways.last hrun

theorem sound_of_run {store : Redis.Keyspace GoString} {actions : List (Action ι)}
    (hrun : (machine config).run (start store) actions = some s) :
  Sound config s
  := sound_run (sound_start store) hrun

end

end PubSub

end Storage

end VmProxyAuth
