import VmProxyAuth.Storage.PubSub

/-!
# What the watchers of a Redis storage are told

A watcher gets a part of the events of other nodes that reach its node, from the first one its node
had not handled when the watch began, in the order the server passed them on; and it gets all of
them that have been handled if none was dropped for it (`watcher_gets_published_events`).  But a
node handles one message each time its ticker fires and no more, so that it may lag behind any
distance (`one_message_each_tick`); and as the events bear keys without the prefix of their node,
watchers are told of keys that are not in their storage (`told_of_other_keyPrefix`).
-/

namespace VmProxyAuth

namespace Storage

namespace PubSub

open LocalWatch (Event Call)

section

variable {ι : Type} [DecidableEq ι] {config : ι → NodeConfig} {s t : State ι}

/-! ### What watchers get -/

/-- A node skips the events with its own identifier, made text, and those that are not valid. -/
theorem handlePubSubMessage_payload (nodeID : GoString) (e : Event) :
  handlePubSubMessage nodeID (payload e)
    = if (asText e).nodeID ≠ nodeID ∧ (asText e).isValid = true then some (asText e) else none
  := by
  rw [handlePubSubMessage, decodeEvent_payload]
  dsimp only
  rw [ite_and, ite_not]

/-- Whether an event is for the watchers of a prefix at a node: its node has another identifier,
it is valid, and its key has the prefix. -/
def isFor (config : ι → NodeConfig) (i : ι) (keyPrefix : GoString) (p : Publication ι) : Bool :=
  decide (str (Utf8.toText (config p.node).nodeID) ≠ (config i).nodeID ∧
    (asText p.event).isValid = true ∧ GoString.hasPrefix (asText p.event).key keyPrefix = true)

omit [DecidableEq ι] in
theorem heard_eq {i : ι} {keyPrefix : GoString} {p : Publication ι}
    (hp : Publishes config p.node p.event) :
  heard (config i).nodeID keyPrefix p.event
    = if isFor config i keyPrefix p then some (asText p.event) else none
  := by
  have hnode : (asText p.event).nodeID = str (Utf8.toText (config p.node).nodeID) := by
    rw [← hp]
    rfl
  rw [heard, handlePubSubMessage_payload, isFor, ← hnode]
  by_cases hskip : (asText p.event).nodeID ≠ (config i).nodeID ∧ (asText p.event).isValid = true
  · rw [if_pos hskip, Option.filter_some]
    simp only [hskip.1, hskip.2, true_and, ne_eq, not_false_eq_true, Bool.decide_eq_true]
  · rw [if_neg hskip, Option.filter_none, if_neg]
    intro hfor
    have hall := of_decide_eq_true hfor
    apply hskip ⟨hall.1, hall.2.1⟩

omit [DecidableEq ι] in
/-- What a watcher is to get, in terms of the messages that reach its node. -/
theorem due_eq (hs : Sound config s) (i : ι) (l : Listener) (entry : Watch) :
  l.due (config i).nodeID (s.feed i) entry
    = ((Feed.between (s.feed i) entry.since l.reader.position).filter
        (isFor config i entry.keyPrefix)).map (fun p => asText p.event)
  := by
  rw [Listener.due, ← List.filterMap_eq_map, List.filterMap_filter]
  apply List.filterMap_congr
  intro p hp
  have hfeed : p ∈ s.feed i := (Feed.between_sublist _ _ _).mem hp
  apply heard_eq (hs.log p (List.mem_of_mem_filter hfeed))

/-- Whatever the nodes do and whatever messages are lost, a watcher gets events of other nodes that
reach its node, those for its prefix, each message at most once and in the order the server passed
them on, and none that its node had handled when the watch began.  While the watch goes on, if no
event was dropped for it, it gets all of them that its node has handled. -/
theorem watcher_gets_published_events {store : Redis.Keyspace GoString}
    {actions : List (Action ι)} (hrun : (machine config).run (start store) actions = some s) {i : ι}
    {l : Listener} (hl : s.listener i = some l) {w : ℕ} {entry : Watch}
    (hw : l.watches[w]? = some entry) :
  (l.delivered w).Sublist
      ((((s.feed i).drop entry.since).filter (isFor config i entry.keyPrefix)).map
        (fun p => asText p.event)) ∧
    (l.Watching w → w ∉ l.dropped →
      l.delivered w = ((Feed.between (s.feed i) entry.since l.reader.position).filter
        (isFor config i entry.keyPrefix)).map (fun p => asText p.event))
  := by
  have hs := sound_of_run hrun
  obtain ⟨hsublist, hall⟩ := (hs.listener i l hl).gets w entry hw
  rw [due_eq hs] at hsublist hall
  use hsublist.trans ?_
  apply List.Sublist.map
  apply List.Sublist.filter
  apply List.Sublist.drop
  apply List.take_sublist

/-- The event of `Set`. -/
def setEvent (config : ι → NodeConfig) (i : ι) (key value : GoString) (timestamp : ℤ) : Event :=
  ⟨.set, key, value, timestamp, (config i).nodeID⟩

/-- The steps of a call of `Set` that nothing comes between, and whose message reaches some
nodes. -/
def setSteps (id : ℕ) (i : ι) (key value : GoString) (ttl now timestamp : ℤ) (reaches : ι → Bool) :
    List (Action ι) :=
  [.call id i (.set key value ttl) [], .exec id now, .announce id timestamp [], .send id,
    .publish id reaches, .sent id]

/-- Two nodes, with prefixes of their own. -/
def twoNodes (second : Bool) : NodeConfig :=
  if second then ⟨str "n2", str "b:"⟩ else ⟨str "n1", str "a:"⟩

/-- The first node watches a prefix, and the second one sets two keys. -/
def twoWrites : List (Action Bool) :=
  [.subscribe false, .subscribe true, .listen false (.watch (str "k"))]
    ++ setSteps 0 true (str "k1") [1] 0 0 1 (fun _ => true)
    ++ setSteps 1 true (str "k2") [2] 0 0 2 (fun _ => true)

/-- The second node sets three keys, and the message for the second one is lost.  The first node
handles a message before it watches a prefix, and one after. -/
def lateWatch : List (Action Bool) :=
  [.subscribe false, .subscribe true]
    ++ setSteps 0 true (str "k1") [1] 0 0 1 (fun _ => true)
    ++ setSteps 1 true (str "k2") [2] 0 0 2 (fun _ => false)
    ++ setSteps 2 true (str "k3") [3] 0 0 3 (fun _ => true)
    ++ [.listen false (.tick true), .listen false (.handle []), .listen false (.watch (str "k")),
      .listen false (.tick true), .listen false (.handle [str "k"])]

/-- What can be seen of the first node and its first watcher, and of the other node. -/
structure View where
  published : ℕ
  reaching : ℕ
  writing : Bool
  otherClosed : Bool
  watches : List Watch
  delivered : List Received
  full : Bool
  dropped : Bool
  closed : Bool
  cancelled : Bool
  position : ℕ
  current : Option Unit
  inbox : ℕ
  deriving DecidableEq

/-- A state with listeners, as it is seen. -/
def view (s : State Bool) (l k : Listener) : View where
  published := s.log.length
  reaching := (s.feed false).length
  writing := (s.writers.lookup 0).isSome
  otherClosed := k.closed
  watches := l.watches
  delivered := l.delivered 0
  full := (l.channels.chan 0).sendBlocks
  dropped := decide (0 ∈ l.dropped)
  closed := l.closed
  cancelled := decide (0 ∈ l.cancelled)
  position := l.reader.position
  current := l.reader.current.map (fun _ => ())
  inbox := l.reader.inbox.length

/-- A state after a run is seen as it is computed. -/
theorem exists_view (actions : List (Action Bool)) (v : View)
    (h : ((machine twoNodes).run (start ∅) actions).bind (fun s => (s.listener false).bind
      (fun l => (s.listener true).map (fun k => view s l k))) = some v) :
  ∃ s l k, (machine twoNodes).run (start ∅) actions = some s ∧ s.listener false = some l ∧
    s.listener true = some k ∧ view s l k = v
  := by
  obtain ⟨s, hrun, hs⟩ := Option.bind_eq_some_iff.mp h
  obtain ⟨l, hl, hk⟩ := Option.bind_eq_some_iff.mp hs
  obtain ⟨k, hk, hv⟩ := Option.map_eq_some_iff.mp hk
  use s, l, k

/-- Of three writes, one was handled before the watch, one is lost, and the watcher gets the
third, which was published before the watch. -/
theorem watcher_gets_published_events_lateWatch :
  ∃ s l, (machine twoNodes).run (start ∅) lateWatch = some s ∧ s.listener false = some l ∧
      s.log.length = 3 ∧ l.watches[0]? = some ⟨str "k", 1⟩ ∧
      l.delivered 0 = [⟨0, str "k3", [3], 3, str "n2"⟩] ∧
      (l.delivered 0).Sublist
        ((((s.feed false).drop 1).filter (isFor twoNodes false (str "k"))).map
          (fun p => asText p.event)) ∧
      l.delivered 0 = ((Feed.between (s.feed false) 1 2).filter
        (isFor twoNodes false (str "k"))).map (fun p => asText p.event)
  := by
  obtain ⟨s, l, k, hrun, hl, hk, hview⟩ := exists_view lateWatch
    ⟨3, 2, true, false, [⟨str "k", 1⟩], [⟨0, str "k3", [3], 3, str "n2"⟩], false, false, false,
      false, 2, none, 0⟩
    (by decide +kernel)
  have hw : l.watches[0]? = some ⟨str "k", 1⟩ := congrArg (fun v => v.watches[0]?) hview
  have hposition : l.reader.position = 2 := congrArg View.position hview
  have hwatching : l.Watching 0 :=
    ⟨(List.getElem?_eq_some_iff.mp hw).1, of_decide_eq_false (congrArg View.cancelled hview),
      congrArg View.closed hview⟩
  obtain ⟨hsublist, hall⟩ := watcher_gets_published_events hrun hl hw
  have hdelivered := hall hwatching (of_decide_eq_false (congrArg View.dropped hview))
  rw [hposition] at hdelivered
  use s, l, hrun, hl, congrArg View.published hview, hw, congrArg View.delivered hview, hsublist

/-! ### One message each tick -/

/-- The messages a listener has taken. -/
def Listener.taken (l : Listener) : ℕ := l.reader.position + l.reader.current.toList.length

/-- Whether an action is a tick of a node. -/
def isTickOf (i : ι) : Action ι → Bool
  | .listen j (.tick _) => decide (j = i)
  | _ => false

/-- How often the ticker of a node fires. -/
def ticks (i : ι) (actions : List (Action ι)) : ℕ := actions.countP (isTickOf i)

/-- The messages a listener takes with a step, at most. -/
def Listening.takes : Listening → ℕ
  | .tick _ => 1
  | _ => 0

/-- Only a tick takes a message, and it takes one. -/
theorem Listener.taken_step {nodeID : GoString} {l l' : Listener} {a : Listening}
    (h : l.step nodeID a = some l') :
  l'.taken ≤ l.taken + a.takes
  := by
  cases a with
  | watch keyPrefix =>
    rw [step] at h
    split_ifs at h
    · exact Option.some.inj h ▸ Nat.le_add_right _ _
    · exact Option.some.inj h ▸ Nat.le_add_right _ _
  | cancel w =>
    rw [step] at h
    split at h
    · split_ifs at h
      exact Option.some.inj h ▸ Nat.le_add_right _ _
    · cases h
  | receive w =>
    rw [step] at h
    split at h
    · exact Option.some.inj h ▸ Nat.le_add_right _ _
    · cases h
  | tick arrived =>
    rw [step] at h
    split_ifs at h with hready
    · exact Option.some.inj h ▸ Nat.le_add_right _ _
    · split at h
      · cases h
      · obtain rfl := Option.some.inj h
        rw [taken, taken, hready.2]
        rfl
    · exact Option.some.inj h ▸ Nat.le_add_right _ _
  | handle order =>
    rw [step] at h
    split at h
    · rename_i message hmessage
      have hfinish : l.finish.taken = l.taken := by
        rw [taken, taken, hmessage]
        rfl
      split at h
      · apply Option.some.inj h ▸ hfinish.le
      · split_ifs at h
        · apply Option.some.inj h ▸ hfinish.le
        · exact Option.some.inj h ▸ hfinish.le
    · cases h
  | close order =>
    rw [step] at h
    split_ifs at h
    · exact Option.some.inj h ▸ Nat.le_add_right _ _
    · exact Option.some.inj h ▸ Nat.le_add_right _ _

/-- What a step does to the listener of a node: nothing, a message reaches it, or it does
something itself. -/
theorem listener_of_step {a : Action ι} (h : (machine config).step s a = some t) {i : ι}
    {l : Listener} (hl : s.listener i = some l) :
  t.listener i = some l ∨ (∃ message, t.listener i = some (l.deliver message)) ∨
    ∃ b l', a = .listen i b ∧ l.step (config i).nodeID b = some l' ∧ t.listener i = some l'
  := by
  cases effect_of_step h with
  | subscribed j hnone =>
    left
    rw [State.listener_setListener, if_neg, hl]
    rintro rfl
    rw [hnone] at hl
    cases hl
  | published id reaches hlookup =>
    rw [listener_publish, hl, Option.map_some]
    split_ifs
    · apply Or.inr (Or.inl ⟨_, rfl⟩)
    · apply Or.inl rfl
  | listened j b k k' hk hk' =>
    rw [State.listener_setListener]
    split_ifs with hj
    · subst hj
      obtain rfl := Option.some.inj (hl.symm.trans hk)
      right
      right
      use b, k', rfl, hk'
    · apply Or.inl hl
  | wrote hwrote =>
    left
    rw [hwrote.listener, hl]

/-- A listener stays, and only a tick of its node lets it take a message. -/
theorem exists_taken_le_of_step {a : Action ι} (h : (machine config).step s a = some t) {i : ι}
    {l : Listener} (hl : s.listener i = some l) :
  ∃ l', t.listener i = some l' ∧ l'.taken ≤ l.taken + if isTickOf i a then 1 else 0
  := by
  obtain hsame | ⟨message, hdelivered⟩ | ⟨b, l', rfl, hb, hl'⟩ := listener_of_step h hl
  · use l, hsame
    apply Nat.le_add_right
  · use l.deliver message, hdelivered
    apply Nat.le_add_right
  · use l', hl'
    apply (Listener.taken_step hb).trans
    cases b <;> simp [isTickOf, Listening.takes]

theorem taken_le_of_run {actions : List (Action ι)} (h : (machine config).run s actions = some t)
    {i : ι} {l l' : Listener} (hl : s.listener i = some l) (hl' : t.listener i = some l') :
  l'.taken ≤ l.taken + ticks i actions
  := by
  induction actions generalizing s l with
  | nil =>
    obtain rfl := Option.some.inj h
    obtain rfl := Option.some.inj (hl.symm.trans hl')
    apply Nat.le_add_right
  | cons a actions ih =>
    obtain ⟨u, hu, hrest⟩ := Machine.run_cons _ |>.mp h
    obtain ⟨k, hk, htaken⟩ := exists_taken_le_of_step hu hl
    have hlater := ih hrest hk
    rw [ticks, List.countP_cons, ← ticks]
    omega

/-- A tick takes the next message, once it has arrived. -/
theorem Listener.step_tick (l : Listener) {message : Json} {rest : List Json}
    (hrunning : l.running = true) (hopen : l.closed = false) (hidle : l.reader.current = none)
    (hinbox : l.reader.inbox = message :: rest) (nodeID : GoString) :
  l.step nodeID (.tick true) = some (l.take message rest)
  := by
  rw [step, if_pos ⟨hrunning, hidle⟩, hopen, if_neg Bool.false_ne_true, if_pos rfl, hinbox]

/-- The watchers are notified of the event of the message taken. -/
theorem Listener.step_handle {nodeID : GoString} {l : Listener} {message : Json} {e : Received}
    (hmessage : l.reader.current = some message) (he : handlePubSubMessage nodeID message = some e)
    (hopen : l.closed = false) :
  l.step nodeID (.handle l.watchers.keys) = some (l.notifyWatchers e l.watchers.keys).finish
  := by
  rw [step, hmessage]
  dsimp only
  rw [he]
  dsimp only
  rw [hopen, if_neg Bool.false_ne_true, if_pos (List.Perm.refl _)]

/-- A message that has been taken can be handled, with the watchers visited in some order. -/
theorem Listener.exists_handle {l : Listener} {message : Json}
    (hmessage : l.reader.current = some message) (hopen : l.closed = false) (nodeID : GoString) :
  ∃ l', l.step nodeID (.handle l.watchers.keys) = some l' ∧ l'.closed = false ∧
    l'.reader = l.reader.finish
  := by
  cases he : handlePubSubMessage nodeID message with
  | none =>
    use l.finish
    rw [step, hmessage]
    dsimp only
    rw [he]
    use rfl, hopen
    rfl
  | some e =>
    use (l.notifyWatchers e l.watchers.keys).finish, step_handle hmessage he hopen, hopen
    rfl

theorem step_listen {i : ι} {l l' : Listener} {a : Listening} (hl : s.listener i = some l)
    (hstep : l.step (config i).nodeID a = some l') :
  (machine config).step s (.listen i a) = some (s.setListener i l')
  := by
  dsimp only [machine, step]
  rw [hl]
  dsimp only
  rw [hstep]
  rfl

/-- A listener does two things, one after the other. -/
theorem run_listen {i : ι} {l l₁ l₂ : Listener} {a b : Listening} (hl : s.listener i = some l)
    (ha : l.step (config i).nodeID a = some l₁) (hb : l₁.step (config i).nodeID b = some l₂) :
  (machine config).run s [.listen i a, .listen i b]
    = some ((s.setListener i l₁).setListener i l₂)
  := by
  have hfirst := step_listen hl ha
  have hl₁ : (s.setListener i l₁).listener i = some l₁ := by
    rw [State.listener_setListener, if_pos rfl]
  have hsecond := step_listen hl₁ hb
  apply (Machine.run_cons _).mpr
  use s.setListener i l₁, hfirst
  apply (Machine.run_cons _).mpr
  use (s.setListener i l₁).setListener i l₂, hsecond
  rfl

/-- A node that is not closed takes and handles the next message. -/
theorem exists_handled {i : ι} {l : Listener} (hs : Sound config s)
    (hl : s.listener i = some l) (hopen : l.closed = false) (hidle : l.reader.current = none)
    (hbehind : l.reader.position < (s.feed i).length) :
  ∃ order t l',
    (machine config).run s [.listen i (.tick true), .listen i (.handle order)] = some t ∧
    t.log = s.log ∧ t.listener i = some l' ∧ l'.closed = false ∧
    l'.reader.current = none ∧ l'.reader.position = l.reader.position + 1
  := by
  have hsound := hs.listener i l hl
  obtain ⟨message, rest, hinbox⟩ : ∃ message rest, l.reader.inbox = message :: rest := by
    apply List.exists_cons_of_ne_nil
    intro hempty
    have hall := hsound.follows.position_eq hidle hempty
    rw [List.length_map] at hall
    apply hbehind.ne hall
  have htick := l.step_tick (hsound.running hopen) hopen hidle hinbox (config i).nodeID
  obtain ⟨l', hl', hopen', hreader⟩ :=
    Listener.exists_handle (l := l.take message rest) rfl hopen (config i).nodeID
  use l.watchers.keys, (s.setListener i (l.take message rest)).setListener i l', l',
    run_listen hl htick hl', rfl
  rw [State.listener_setListener, if_pos rfl, hreader]
  use rfl, hopen', rfl
  rfl

/-- Whatever the nodes do, a node handles at most as many messages as its ticker fires; and if it
is not closed, it can handle as many, until none is left. -/
theorem one_message_each_tick {store : Redis.Keyspace GoString} {actions : List (Action ι)}
    (hrun : (machine config).run (start store) actions = some s) {i : ι} {l : Listener}
    (hl : s.listener i = some l) (hidle : l.reader.current = none) :
  (∀ more t l', (machine config).run s more = some t → t.listener i = some l' →
      l'.reader.position ≤ l.reader.position + ticks i more) ∧
    (l.closed = false → ∀ n, l.reader.position + n ≤ (s.feed i).length →
      ∃ more t l', ticks i more = n ∧ (machine config).run s more = some t ∧ t.log = s.log ∧
        t.listener i = some l' ∧ l'.reader.position = l.reader.position + n)
  := by
  have hs := sound_of_run hrun
  constructor
  · intro more t l' hmore hl'
    have htaken := taken_le_of_run hmore hl hl'
    rw [Listener.taken, Listener.taken, hidle] at htaken
    apply le_trans _ htaken
    apply Nat.le_add_right
  · intro hopen n
    clear hrun
    -- each message is taken by one tick more, from the state the last one was handled in
    induction n generalizing s l with
    | zero =>
      intro _
      use [], s, l, rfl, rfl, rfl, hl
      rfl
    | succ n ih =>
      intro hn
      have hbehind : l.reader.position < (s.feed i).length := by omega
      obtain ⟨order, u, k, hfirst, hlog, hk, hopen', hidle', hposition⟩ :=
        exists_handled hs hl hopen hidle hbehind
      have hu : Sound config u := sound_run hs hfirst
      have hrest : k.reader.position + n ≤ (u.feed i).length := by
        rw [State.feed, hlog, ← State.feed, hposition]
        omega
      obtain ⟨more, t, l', hticks, hmore, hlog', hl', hposition'⟩ :=
        ih hk hidle' hu hopen' hrest
      use [.listen i (.tick true), .listen i (.handle order)] ++ more, t, l'
      refine ⟨?_, ?_, hlog'.trans hlog, hl', ?_⟩
      · rw [ticks, List.countP_append, ← ticks, ← ticks, hticks, Nat.add_comm]
        simp [ticks, isTickOf]
      · rw [Machine.run_append, hfirst]
        apply hmore
      · rw [hposition', hposition]
        omega

/-- Both writes wait, and are handled with two ticks and not with less. -/
theorem one_message_each_tick_twoWrites :
  ∃ s l, (machine twoNodes).run (start ∅) twoWrites = some s ∧ s.listener false = some l ∧
    l.reader.position = 0 ∧ (s.feed false).length = 2 ∧
    (∀ more t l', (machine twoNodes).run s more = some t → t.listener false = some l' →
      l'.reader.position ≤ ticks false more) ∧
    ∃ more t l', ticks false more = 2 ∧ (machine twoNodes).run s more = some t ∧
      t.listener false = some l' ∧ l'.reader.position = 2
  := by
  obtain ⟨s, l, k, hrun, hl, hk, hview⟩ := exists_view twoWrites
    ⟨2, 2, true, false, [⟨str "k", 0⟩], [], false, false, false, false, 0, none, 2⟩
    (by decide +kernel)
  have hidle := Option.map_eq_none_iff.mp (congrArg View.current hview)
  have hposition : l.reader.position = 0 := congrArg View.position hview
  have hlength : (s.feed false).length = 2 := congrArg View.reaching hview
  obtain ⟨hmost, hcatches⟩ := one_message_each_tick hrun hl hidle
  rw [hposition] at hmost hcatches
  obtain ⟨more, t, l', hticks, hmore, -, hl', hend⟩ :=
    hcatches (congrArg View.closed hview) 2 hlength.ge
  refine ⟨s, l, hrun, hl, hposition, hlength, ?_, more, t, l', hticks, hmore, hl', hend⟩
  intro more t l' hmore hl'
  have hle := hmost more t l' hmore hl'
  rwa [Nat.zero_add] at hle

/-! ### Keys under other prefixes -/

section

variable {id : ℕ} {i : ι}

omit [DecidableEq ι] in
theorem State.lookup_setWriter (s : State ι) (id : ℕ) (writer : Writer ι) :
  (s.setWriter id writer).writers.lookup id = some writer
  := AList.lookup_insert s.writers

theorem step_exec {c : Call} {write : LocalWatch.Write} {todo : List LocalWatch.Write}
    {deleted : Bool}
    (h : s.writers.lookup id = some ⟨i, c, .executing (write :: todo) deleted⟩) (now : ℤ) :
  (machine config).step s (.exec id now)
    = some (({ s with store := exec (config i).keyPrefix s.store now write } : State ι).setWriter
        id ⟨i, c, .executing todo (deleted || deletes (config i).keyPrefix s.store now write)⟩)
  := by
  dsimp only [machine, step]
  rw [h]

theorem step_announce {c : Call} {deleted : Bool}
    (h : s.writers.lookup id = some ⟨i, c, .executing [] deleted⟩) {timestamp : ℤ}
    {order : List (GoString × GoString)} {events : List Event}
    (hevents : eventsOf (config i).nodeID timestamp order deleted c = some events) :
  (machine config).step s (.announce id timestamp order)
    = some (s.setWriter id ⟨i, c, .publishing events⟩)
  := by
  dsimp only [machine, step]
  rw [h]
  dsimp only
  rw [hevents]
  rfl

theorem step_send {c : Call} {e : Event} {rest : List Event}
    (h : s.writers.lookup id = some ⟨i, c, .publishing (e :: rest)⟩) {k : Listener}
    (hk : s.listener i = some k) (hopen : k.closed = false) :
  (machine config).step s (.send id) = some (s.setWriter id ⟨i, c, .sending e rest⟩)
  := by
  dsimp only [machine, step]
  rw [h]
  dsimp only
  rw [hk, Option.any_some, hopen]
  rfl

theorem step_publish {c : Call} {e : Event} {rest : List Event}
    (h : s.writers.lookup id = some ⟨i, c, .sending e rest⟩) (reaches : ι → Bool) :
  (machine config).step s (.publish id reaches) = some (s.publish ⟨i, e, reaches⟩)
  := by
  dsimp only [machine, step]
  rw [h]

theorem step_sent {c : Call} {e : Event} {rest : List Event}
    (h : s.writers.lookup id = some ⟨i, c, .sending e rest⟩) :
  (machine config).step s (.sent id) = some (s.setWriter id ⟨i, c, .publishing rest⟩)
  := by
  dsimp only [machine, step]
  rw [h]

/-- A call of `Set` sets the key with the prefix of its node, and publishes the key without it. -/
theorem exists_run_setSteps {k : Listener} (hid : s.writers.lookup id = none)
    (hk : s.listener i = some k) (hopen : k.closed = false) (key value : GoString)
    (ttl now timestamp : ℤ) (reaches : ι → Bool) :
  ∃ t, (machine config).run s (setSteps id i key value ttl now timestamp reaches) = some t ∧
    t.store = RedisStorage.set (config i).keyPrefix s.store now key value ttl ∧
    t.listener = (s.publish ⟨i, setEvent config i key value timestamp, reaches⟩).listener
  := by
  have hcall : (machine config).step s (.call id i (.set key value ttl) []) = some
      (s.setWriter id ⟨i, .set key value ttl, .executing [.set key value ttl] false⟩) := by
    dsimp only [machine, step, Call.writes]
    rw [hid, hk]
    dsimp only
    rw [hopen, if_neg Bool.false_ne_true]
  refine ⟨_, Machine.run_cons _ |>.mpr ⟨_, hcall, Machine.run_cons _ |>.mpr
    ⟨_, step_exec (State.lookup_setWriter ..) now, Machine.run_cons _ |>.mpr
    ⟨_, step_announce (State.lookup_setWriter ..) rfl, Machine.run_cons _ |>.mpr
    ⟨_, step_send (State.lookup_setWriter ..) hk hopen, Machine.run_cons _ |>.mpr
    ⟨_, step_publish (State.lookup_setWriter ..) reaches, Machine.run_cons _ |>.mpr
    ⟨_, step_sent (State.lookup_setWriter ..), rfl⟩⟩⟩⟩⟩⟩, rfl, rfl⟩

/-- A node that has handled all messages and waits for the next one. -/
structure Listener.Ready (l : Listener) : Prop where
  unclosed : l.closed = false
  idle : l.reader.current = none
  inbox : l.reader.inbox = []

omit [DecidableEq ι] in
/-- A node that is ready tells its watchers of the message that comes next. -/
theorem Listener.Ready.exists_told {nodeID : GoString} {feed : List (Publication ι)} {l : Listener}
    (hready : l.Ready) (hs : l.Sound nodeID feed) {w : ℕ} {entry : Watch}
    (hw : l.watches[w]? = some entry) (hnot : w ∉ l.cancelled)
    (hroom : (l.channels.chan w).sendBlocks = false) {message : Json} {e : Received}
    (he : handlePubSubMessage nodeID message = some e)
    (hkey : GoString.hasPrefix e.key entry.keyPrefix = true) :
  ∃ l₁ l₂, (l.deliver message).step nodeID (.tick true) = some l₁ ∧
    l₁.step nodeID (.handle l.watchers.keys) = some l₂ ∧ l₂.delivered w = l.delivered w ++ [e]
  := by
  have hwatching : l.Watching w :=
    ⟨(List.getElem?_eq_some_iff.mp hw).1, hnot, hready.unclosed⟩
  have htarget := (mem_targets hs hw hwatching (List.Perm.refl _) e.key).mpr hkey
  have hchan := chan_notifyWatchers hs hready.unclosed (List.Perm.refl _) e w
  rw [if_pos htarget] at hchan
  have hinbox : (l.deliver message).reader.inbox = [message] := by
    rw [deliver, Feed.Reader.deliver, hready.inbox]
    rfl
  use (l.deliver message).take message [],
    (((l.deliver message).take message []).notifyWatchers e l.watchers.keys).finish
  refine ⟨?_, ?_, ?_⟩
  · apply (l.deliver message).step_tick (hs.running hready.unclosed) hready.unclosed hready.idle
      hinbox
  · apply step_handle (l := (l.deliver message).take message []) rfl he hready.unclosed
  · change l.received w ++ ((l.notifyWatchers e l.watchers.keys).channels.chan w).buffer = _
    rw [hchan, (Chan.trySend_of_open (hs.unclosed w hwatching) e).2, hroom,
      if_neg Bool.false_ne_true, ← List.append_assoc]
    rfl

/-- Watchers are told of writes under other key prefixes: the events of all nodes go through one
channel, and bear the key without the prefix.  After another node has set a key under a prefix of
its own, and the message has reached a node, the watchers of the key at this node are told that the
key was set, while the node reads what it read before. -/
theorem told_of_other_keyPrefix {store : Redis.Keyspace GoString} {actions : List (Action ι)}
    (hrun : (machine config).run (start store) actions = some s) {j : ι} {k l : Listener}
    (hk : s.listener j = some k) (hopen : k.closed = false) (hid : s.writers.lookup id = none)
    (hl : s.listener i = some l) (hready : l.Ready) {w : ℕ} {entry : Watch}
    (hw : l.watches[w]? = some entry) (hnot : w ∉ l.cancelled)
    (hroom : (l.channels.chan w).sendBlocks = false) {key : GoString} (htext : Utf8.Valid key)
    (hkey : key ≠ []) (hwatched : GoString.hasPrefix key entry.keyPrefix = true)
    (hnodeID : str (Utf8.toText (config j).nodeID) ≠ (config i).nodeID)
    (hnamed : str (Utf8.toText (config j).nodeID) ≠ [])
    (hapart : (config i).keyPrefix ≠ (config j).keyPrefix) (value : GoString) (ttl now : ℤ)
    (timestamp : ℤ) (htime : timestamp ≠ StorageItem.zero.createdAt) (reaches : ι → Bool)
    (hreaches : reaches i = true) :
  ∃ t l', (machine config).run s (setSteps id j key value ttl now timestamp reaches ++
        [.listen i (.tick true), .listen i (.handle l.watchers.keys)]) = some t ∧
    t.listener i = some l' ∧
    l'.delivered w
      = l.delivered w ++ [⟨0, key, value, timestamp, str (Utf8.toText (config j).nodeID)⟩] ∧
    ∀ later, RedisStorage.get (config i).keyPrefix t.store later key
      = RedisStorage.get (config i).keyPrefix s.store later key
  := by
  have hs := sound_of_run hrun
  have hsame : asText (setEvent config j key value timestamp)
      = ⟨0, key, value, timestamp, str (Utf8.toText (config j).nodeID)⟩ := by
    rw [asText, setEvent, Utf8.valid_iff.mp htext]
    rfl
  have hevent : handlePubSubMessage (config i).nodeID
      (payload (setEvent config j key value timestamp))
        = some ⟨0, key, value, timestamp, str (Utf8.toText (config j).nodeID)⟩ := by
    rw [handlePubSubMessage_payload, hsame, if_pos]
    use hnodeID
    apply decide_eq_true ⟨hkey, hnamed, htime⟩
  obtain ⟨u, hu, hstore, hlistener⟩ :=
    exists_run_setSteps hid hk hopen key value ttl now timestamp reaches
  obtain ⟨l₁, l₂, htick, hhandle, hdelivered⟩ :=
    hready.exists_told (hs.listener i l hl) hw hnot hroom hevent hwatched
  have hul : u.listener i
      = some (l.deliver (payload (setEvent config j key value timestamp))) := by
    rw [hlistener, listener_publish, hl, Option.map_some, if_pos hreaches]
  use (u.setListener i l₁).setListener i l₂, l₂
  refine ⟨?_, ?_, hdelivered, ?_⟩
  · rw [Machine.run_append, hu]
    apply run_listen hul htick hhandle
  · rw [State.listener_setListener, if_pos rfl]
  · intro later
    have hne : RedisStorage.formatKey (config i).keyPrefix key
        ≠ RedisStorage.formatKey (config j).keyPrefix key := by
      rw [RedisStorage.formatKey, RedisStorage.formatKey, ne_eq, List.append_left_inj]
      apply hapart
    change RedisStorage.get _ u.store later key = _
    rw [hstore, RedisStorage.set_eq_insert, RedisStorage.get, RedisStorage.get, Redis.get,
      AList.lookup_insert_ne hne, Redis.get]

/-- The first node is told of a key that it cannot read. -/
theorem told_of_other_keyPrefix_twoNodes :
  ∃ s l t l', (machine twoNodes).run (start ∅)
        [.subscribe false, .subscribe true, .listen false (.watch (str "k"))] = some s ∧
      s.listener false = some l ∧
      (machine twoNodes).run s (setSteps 0 true (str "k1") [1] 0 0 1 (fun _ => true) ++
        [.listen false (.tick true), .listen false (.handle l.watchers.keys)]) = some t ∧
      t.listener false = some l' ∧
      l'.delivered 0 = l.delivered 0 ++ [⟨0, str "k1", [1], 1, str "n2"⟩] ∧
      ∀ later, RedisStorage.get (str "a:") t.store later (str "k1")
        = RedisStorage.get (str "a:") s.store later (str "k1")
  := by
  obtain ⟨s, l, k, hrun, hl, hk, hview⟩ := exists_view
    [.subscribe false, .subscribe true, .listen false (.watch (str "k"))]
    ⟨0, 0, false, false, [⟨str "k", 0⟩], [], false, false, false, false, 0, none, 0⟩
    (by decide +kernel)
  have hw : l.watches[0]? = some ⟨str "k", 0⟩ := congrArg (fun v => v.watches[0]?) hview
  have hready : l.Ready := ⟨congrArg View.closed hview,
    Option.map_eq_none_iff.mp (congrArg View.current hview),
    List.length_eq_zero_iff.mp (congrArg View.inbox hview)⟩
  have hid : s.writers.lookup 0 = none :=
    Option.isNone_iff_eq_none.mp (Option.isSome_eq_false_iff.mp (congrArg View.writing hview))
  have hnode : str (Utf8.toText (twoNodes true).nodeID) = str "n2" := by decide +kernel
  obtain ⟨t, l', hset, hl', hdelivered, hstore⟩ := told_of_other_keyPrefix hrun hk
    (congrArg View.otherClosed hview) hid hl hready hw
    (of_decide_eq_false (congrArg View.cancelled hview)) (congrArg View.full hview)
    ⟨"k1", rfl⟩ (by decide +kernel) (by decide +kernel) (by decide +kernel) (by decide +kernel)
    (by decide +kernel) [1] 0 0 1 (by decide +kernel) (fun _ => true) rfl
  rw [hnode] at hdelivered
  use s, l, t, l', hrun, hl, hset, hl', hdelivered, hstore

end

end

end PubSub

end Storage

end VmProxyAuth
