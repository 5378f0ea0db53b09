import VmProxyAuth.Lib.Channels
import VmProxyAuth.Storage.Watching

/-!
# The end of a watch

When the context of a watch is cancelled, or the storage is closed, the Redis storage and the
Raft storage receive from the channel of the watcher to find out whether it has been closed, and
close it if nothing can be received.  An event in the buffer is taken for the answer that the
channel is closed: it is lost, and the channel may be left open (`event_lost`).  `ends_iff_empty`
says that a clean-up ends a watch as it should exactly if its buffer is empty.

A clean-up is one step, at the moment when the channel leaves the registry: from then on nothing is
sent to the channel, and its buffer is the one that is polled, unless the consumer receives in
between.  For the Raft storage the module `RaftClosing` has the steps one by one.
-/

namespace VmProxyAuth

namespace Storage

/-! ### The clean-ups -/

namespace RedisStorage

/-- `removeWatcherAndClose`: the registry and the channels it leaves. -/
def removeWatcherAndClose {E : Type} (watchers : Registry GoString) (c : Channels E)
    (keyPrefix : GoString) (w : ℕ) : Registry GoString × Channels E :=
  match watchers.lookup keyPrefix with
  | none => (watchers, c)
  | some _ => (watchers.remove keyPrefix w, c.pollClose w)

/-- `closeAllWatchers`, the prefixes visited in the given order. -/
def closeAllWatchers {E : Type} (watchers : Registry GoString) (c : Channels E)
    (order : List GoString) : Registry GoString × Channels E :=
  (∅, c.pollCloseAll (watchers.channels order))

end RedisStorage

namespace RaftStorage

/-- `removeWatcherAndClose`: the registries of the storage and of its state machine, and the
channels it leaves. -/
def removeWatcherAndClose {E : Type} (watchChans fsm : Registry GoString) (c : Channels E)
    (keyPrefix : GoString) (w : ℕ) : Registry GoString × Registry GoString × Channels E :=
  (watchChans.remove keyPrefix w, fsm.remove keyPrefix w, c.pollClose w)

/-- `closeAllWatchers`, first of the storage and then of its state machine, the prefixes visited
in the given orders. -/
def closeAllWatchers {E : Type} (watchChans fsm : Registry GoString) (c : Channels E)
    (order fsmOrder : List GoString) : Registry GoString × Registry GoString × Channels E :=
  (∅, ∅, (c.pollCloseAll (watchChans.channels order)).pollCloseAll (fsm.channels fsmOrder))

end RaftStorage

/-! ### Watches and their ends -/

namespace Cleanup

/-- The two storages. -/
inductive Kind where
  | redis
  | raft
  deriving DecidableEq

/-- The watchers of a storage: its registry, that of its state machine if it has one, the prefix
and the channel of each watcher, whether the storage is closed, and the watches that were
cancelled. -/
structure State where
  watchers : Registry GoString
  fsm : Registry GoString
  prefixes : List GoString
  channels : Channels StateEvent
  closed : Bool
  cancelled : Finset ℕ

/-- A watch begins or is cancelled, an event is sent to the watchers, a consumer receives one, or
the storage is closed.  The maps are visited in the given orders. -/
inductive Action where
  | watch (keyPrefix : GoString)
  | cancel (w : ℕ)
  | notify (e : StateEvent) (order : List GoString)
  | receive (w : ℕ)
  | close (order fsmOrder : List GoString)

/-- The registry events are sent to. -/
def State.notified (kind : Kind) (s : State) : Registry GoString :=
  match kind with
  | .redis => s.watchers
  | .raft => s.fsm

/-- The state after a watch is cancelled. -/
def State.cancel (kind : Kind) (s : State) (keyPrefix : GoString) (w : ℕ) : State :=
  match kind with
  | .redis =>
    { s with
      watchers := (RedisStorage.removeWatcherAndClose s.watchers s.channels keyPrefix w).1
      channels := (RedisStorage.removeWatcherAndClose s.watchers s.channels keyPrefix w).2
      cancelled := insert w s.cancelled }
  | .raft =>
    let r := RaftStorage.removeWatcherAndClose s.watchers s.fsm s.channels keyPrefix w
    { s with
      watchers := r.1
      fsm := r.2.1
      channels := r.2.2
      cancelled := insert w s.cancelled }

/-- The state after the storage is closed. -/
def State.close (kind : Kind) (s : State) (order fsmOrder : List GoString) : State :=
  match kind with
  | .redis =>
    { s with
      watchers := (RedisStorage.closeAllWatchers s.watchers s.channels order).1
      channels := (RedisStorage.closeAllWatchers s.watchers s.channels order).2
      closed := true }
  | .raft =>
    let r := RaftStorage.closeAllWatchers s.watchers s.fsm s.channels order fsmOrder
    { s with
      watchers := r.1
      fsm := r.2.1
      channels := r.2.2
      closed := true }

/-- One step of a storage. -/
def step (kind : Kind) (s : State) : Action → Option State
  | .watch keyPrefix =>
    if s.closed then some s
    else
      some { s with
             watchers := MultiMap.add s.watchers keyPrefix s.prefixes.length
             fsm :=
               match kind with
               | .redis => s.fsm
               | .raft => MultiMap.add s.fsm keyPrefix s.prefixes.length
             prefixes := s.prefixes ++ [keyPrefix]
             channels := s.channels.set s.prefixes.length (Chan.make watchChannelSize) }
  | .cancel w =>
    match s.prefixes[w]? with
    | some keyPrefix => if w ∈ s.cancelled then none else some (s.cancel kind keyPrefix w)
    | none => none
  | .notify e order =>
    if order.Perm (s.notified kind).keys then
      some { s with
             channels :=
               ((s.notified kind).channels
                 (order.filter (fun keyPrefix => GoString.hasPrefix (str e.key) keyPrefix))).foldl
                 (fun c w => c.trySend w e) s.channels }
    else none
  | .receive w => some { s with channels := s.channels.tryReceive w }
  | .close order fsmOrder =>
    if s.closed then some s
    else if order.Perm s.watchers.keys ∧ fsmOrder.Perm s.fsm.keys then
      some (s.close kind order fsmOrder)
    else none

/-- The runs of a storage. -/
def machine (kind : Kind) : Machine State Action := ⟨step kind⟩

/-- A new storage. -/
def start : State := ⟨∅, ∅, [], ⟨fun _ => Chan.make 0, []⟩, false, ∅⟩

/-- A watch that goes on: it has begun and was not cancelled, and the storage is not closed. -/
def State.Watching (s : State) (w : ℕ) (keyPrefix : GoString) : Prop :=
  s.prefixes[w]? = some keyPrefix ∧ w ∉ s.cancelled ∧ s.closed = false

/-- The channel is closed, and all events that were buffered can still be received. -/
def Ends (s t : State) (w : ℕ) : Prop :=
  (t.channels.chan w).closed = true ∧
    (t.channels.chan w).buffer = (s.channels.chan w).buffer

/-! ### What holds of every state -/

/-- A registry lists the watches that were not cancelled, each under its prefix. -/
structure Registered (prefixes : List GoString) (cancelled : Finset ℕ) (r : Registry GoString) :
    Prop where
  proper : r.Proper (fun w => prefixes[w]?)
  lists : ∀ w, r.Lists w ↔ w < prefixes.length ∧ w ∉ cancelled

/-- While a storage is not closed, its registries list the watches that go on. -/
structure Sound (kind : Kind) (s : State) : Prop where
  cancelled : ∀ w ∈ s.cancelled, w < s.prefixes.length
  watchers : s.closed = false → Registered s.prefixes s.cancelled s.watchers
  fsm : s.closed = false → kind = .raft → Registered s.prefixes s.cancelled s.fsm

section

variable {prefixes : List GoString} {cancelled : Finset ℕ} {r : Registry GoString}
  {keyPrefix : GoString} {w : ℕ}

/-- A watch that begins is registered. -/
theorem Registered.watch (h : Registered prefixes cancelled r)
    (hcancelled : ∀ w ∈ cancelled, w < prefixes.length) (keyPrefix : GoString) :
  Registered (prefixes ++ [keyPrefix]) cancelled (MultiMap.add r keyPrefix prefixes.length)
  := by
  refine ⟨h.proper.register keyPrefix, ?_⟩
  intro w
  rw [Registry.lists_add, h.lists, List.length_append, List.length_singleton]
  constructor
  · rintro (⟨hw, hnot⟩ | rfl)
    · exact ⟨Nat.lt_succ_of_lt hw, hnot⟩
    · refine ⟨Nat.lt_succ_self _, ?_⟩
      intro hmem
      apply lt_irrefl _ (hcancelled _ hmem)
  · rintro ⟨hw, hnot⟩
    rcases Nat.lt_succ_iff_lt_or_eq.mp hw with hlt | heq
    · exact .inl ⟨hlt, hnot⟩
    · exact .inr heq

/-- A watch that is cancelled is no longer registered. -/
theorem Registered.cancel (h : Registered prefixes cancelled r)
    (hw : prefixes[w]? = some keyPrefix) :
  Registered prefixes (insert w cancelled) (r.remove keyPrefix w)
  := by
  refine ⟨h.proper.remove keyPrefix w, ?_⟩
  intro w'
  rw [h.proper.lists_remove hw, h.lists, Finset.mem_insert, not_or, and_assoc,
    and_comm (a := w' ≠ w)]

theorem Registered.mem_values (h : Registered prefixes cancelled r)
    (hw : prefixes[w]? = some keyPrefix) (hnot : w ∉ cancelled) :
  w ∈ MultiMap.values r keyPrefix
  := by
  obtain ⟨hlt, -⟩ := List.getElem?_eq_some_iff.mp hw
  obtain ⟨k, hk⟩ := (h.lists w).mpr ⟨hlt, hnot⟩
  have hkey := (h.proper k).2 w hk
  obtain rfl := Option.some.inj (hkey.symm.trans hw)
  apply hk

theorem Registered.lookup_ne_none (h : Registered prefixes cancelled r)
    (hw : prefixes[w]? = some keyPrefix) (hnot : w ∉ cancelled) :
  r.lookup keyPrefix ≠ none
  := by
  intro hnone
  have hmem := h.mem_values hw hnot
  rw [MultiMap.values, hnone] at hmem
  cases hmem

/-- A watch that goes on is listed once. -/
theorem Registered.count_channels (h : Registered prefixes cancelled r)
    (hw : prefixes[w]? = some keyPrefix) (hnot : w ∉ cancelled) {order : List GoString}
    (horder : order.Perm r.keys) :
  (r.channels order).count w = 1
  := by
  apply List.count_eq_one_of_mem
  · apply Registry.nodup_channels h.proper (horder.nodup_iff.mpr r.keys_nodup)
  · apply (Registry.mem_channels_iff horder).mpr ⟨keyPrefix, h.mem_values hw hnot⟩

end

section

variable {kind : Kind} {s t : State}

/-- Cancelling a watch that goes on polls its channel. -/
theorem chan_cancel (hs : Sound kind s) {w : ℕ} {keyPrefix : GoString}
    (hw : s.Watching w keyPrefix) :
  (s.cancel kind keyPrefix w).channels.chan w = (s.channels.chan w).pollClose
  := by
  cases kind with
  | redis =>
    rw [State.cancel, RedisStorage.removeWatcherAndClose]
    cases hlookup : s.watchers.lookup keyPrefix with
    | none => apply absurd hlookup ((hs.watchers hw.2.2).lookup_ne_none hw.1 hw.2.1)
    | some channels =>
      dsimp only
      rw [Channels.chan_pollClose, if_pos rfl]
  | raft =>
    dsimp only [State.cancel, RaftStorage.removeWatcherAndClose]
    rw [Channels.chan_pollClose, if_pos rfl]

/-- Closing the storage polls the channel of a watch that goes on, once or twice. -/
theorem exists_chan_close (hs : Sound kind s) {w : ℕ} {keyPrefix : GoString}
    (hw : s.Watching w keyPrefix) {order fsmOrder : List GoString}
    (horder : order.Perm s.watchers.keys) (hfsmOrder : fsmOrder.Perm s.fsm.keys) :
  ∃ n, 0 < n ∧
    (s.close kind order fsmOrder).channels.chan w = Chan.pollClose^[n] (s.channels.chan w)
  := by
  have hcount := (hs.watchers hw.2.2).count_channels hw.1 hw.2.1 horder
  cases kind with
  | redis =>
    use 1, one_pos
    dsimp only [State.close, RedisStorage.closeAllWatchers]
    rw [Channels.chan_pollCloseAll, hcount]
  | raft =>
    use 2, two_pos
    have hfsmCount := (hs.fsm hw.2.2 rfl).count_channels hw.1 hw.2.1 hfsmOrder
    dsimp only [State.close, RaftStorage.closeAllWatchers]
    rw [Channels.chan_pollCloseAll, Channels.chan_pollCloseAll, hcount, hfsmCount]
    rfl

theorem sound_step {a : Action} (hs : Sound kind s) (h : (machine kind).step s a = some t) :
  Sound kind t
  := by
  cases a with
  | watch keyPrefix =>
    dsimp only [machine, step] at h
    split_ifs at h with hclosed
    · obtain rfl := Option.some.inj h
      apply hs
    · obtain rfl := Option.some.inj h
      rw [Bool.not_eq_true] at hclosed
      constructor
      · intro w hw
        rw [List.length_append]
        apply Nat.lt_add_right _ (hs.cancelled w hw)
      · intro _
        apply (hs.watchers hclosed).watch hs.cancelled keyPrefix
      · rintro - rfl
        apply (hs.fsm hclosed rfl).watch hs.cancelled keyPrefix
  | cancel w =>
    dsimp only [machine, step] at h
    split at h
    · rename_i keyPrefix hw
      split_ifs at h with hnot
      obtain rfl := Option.some.inj h
      have hcancelled : ∀ w' ∈ insert w s.cancelled, w' < s.prefixes.length := by
        rw [Finset.forall_mem_insert]
        exact ⟨(List.getElem?_eq_some_iff.mp hw).1, hs.cancelled⟩
      cases kind with
      | redis =>
        refine ⟨hcancelled, ?_, fun _ h => nomatch h⟩
        intro hopen
        have hregistered := hs.watchers hopen
        rw [State.cancel, RedisStorage.removeWatcherAndClose]
        cases hlookup : s.watchers.lookup keyPrefix with
        | none => apply absurd hlookup (hregistered.lookup_ne_none hw hnot)
        | some channels => apply hregistered.cancel hw
      | raft =>
        exact ⟨hcancelled, fun hopen => (hs.watchers hopen).cancel hw,
          fun hopen _ => (hs.fsm hopen rfl).cancel hw⟩
    · cases h
  | notify e order =>
    obtain ⟨-, ⟨⟩⟩ := Option.ite_none_right_eq_some.mp h
    exact ⟨hs.cancelled, hs.watchers, hs.fsm⟩
  | receive w =>
    obtain rfl := Option.some.inj h
    exact ⟨hs.cancelled, hs.watchers, hs.fsm⟩
  | close order fsmOrder =>
    dsimp only [machine, step] at h
    split_ifs at h with hclosed
    · obtain rfl := Option.some.inj h
      apply hs
    · obtain rfl := Option.some.inj h
      cases kind with
      | redis => exact ⟨hs.cancelled, (nomatch ·), (nomatch ·)⟩
      | raft => exact ⟨hs.cancelled, (nomatch ·), (nomatch ·)⟩

end

theorem sound_start (kind : Kind) :
  Sound kind start
  := by
  have hempty : Registered [] ∅ (∅ : Registry GoString) := by
    refine ⟨Registry.proper_empty, ?_⟩
    intro w
    apply iff_of_false (Registry.not_lists_empty w)
    rintro ⟨⟨⟩, -⟩
  exact ⟨fun w hw => absurd hw (Finset.notMem_empty w), fun _ => hempty, fun _ _ => hempty⟩

/-- A clean-up ends a watch as it should, from any state that can be reached, exactly if no event
is buffered: with the channel closed, and all events still there. -/
theorem ends_iff_empty (kind : Kind) {actions : List Action} {s : State}
    (hrun : (machine kind).run start actions = some s) {w : ℕ} {keyPrefix : GoString}
    (hw : s.Watching w keyPrefix) :
  (∃ t, (machine kind).step s (.cancel w) = some t ∧
      (Ends s t w ↔ (s.channels.chan w).buffer = [])) ∧
    ∀ order fsmOrder t, (machine kind).step s (.close order fsmOrder) = some t →
      (Ends s t w ↔ (s.channels.chan w).buffer = [])
  := by
  have hs : Sound kind s := by
    have halways := Machine.persists_of_invariant (I := fun _ => True) (P := Sound kind)
      (fun _ h => h) (fun _ _ _ hs _ h => sound_step hs h) (sound_start kind) actions
      (fun _ _ => trivial)
    apply halways.last hrun
  constructor
  · refine ⟨s.cancel kind keyPrefix w, ?_, ?_⟩
    · dsimp only [machine, step]
      rw [hw.1]
      dsimp only
      rw [if_neg hw.2.1]
    · rw [Ends, chan_cancel hs hw]
      apply Chan.ended_iterate_pollClose_iff (n := 1) one_pos
  · intro order fsmOrder t ht
    dsimp only [machine, step] at ht
    rw [hw.2.2] at ht
    obtain ⟨⟨horder, hfsmOrder⟩, ⟨⟩⟩ := Option.ite_none_right_eq_some.mp ht
    obtain ⟨n, hn, hchan⟩ := exists_chan_close hs hw horder hfsmOrder
    rw [Ends, hchan]
    apply Chan.ended_iterate_pollClose_iff hn

/-! ### A buffered event -/

def someEvent : StateEvent := ⟨.set, "k", [], 0, "n2"⟩

/-- The steps after which a watcher has an event in its buffer. -/
def oneEvent : List Action := [.watch (str "k"), .notify someEvent [str "k"]]

/-- If an event is buffered, cancelling the watch takes it out and leaves the channel open.  So
does closing the Redis storage; closing the Raft storage takes the event out, too. -/
theorem event_lost :
  (∀ kind, ∃ s t, (machine kind).run start oneEvent = some s ∧
      (machine kind).step s (.cancel 0) = some t ∧ (s.channels.chan 0).buffer = [someEvent] ∧
      (t.channels.chan 0).buffer = [] ∧ (t.channels.chan 0).closed = false) ∧
    (∃ s t, (machine .redis).run start oneEvent = some s ∧
      (machine .redis).step s (.close [str "k"] []) = some t ∧
      (s.channels.chan 0).buffer = [someEvent] ∧
      (t.channels.chan 0).buffer = [] ∧ (t.channels.chan 0).closed = false) ∧
    ∃ s t, (machine .raft).run start oneEvent = some s ∧
      (machine .raft).step s (.close [str "k"] [str "k"]) = some t ∧
      (s.channels.chan 0).buffer = [someEvent] ∧ (t.channels.chan 0).buffer = []
  := by
  refine ⟨?_, ?_, ?_⟩
  · rintro (_ | _)
    · exact ⟨_, _, rfl, rfl, by decide +kernel, by decide +kernel, by decide +kernel⟩
    · exact ⟨_, _, rfl, rfl, by decide +kernel, by decide +kernel, by decide +kernel⟩
  · exact ⟨_, _, rfl, rfl, by decide +kernel, by decide +kernel, by decide +kernel⟩
  · exact ⟨_, _, rfl, rfl, by decide +kernel, by decide +kernel⟩

/-- Once the event was received, a clean-up ends the watch. -/
theorem received_before_cancel :
  ∃ s t, (machine .raft).run start (oneEvent ++ [.receive 0]) = some s ∧
    s.Watching 0 (str "k") ∧ (machine .raft).step s (.cancel 0) = some t ∧ Ends s t 0
  := by
  obtain ⟨s, hrun, hbuffer, hw⟩ : ∃ s,
      (machine .raft).run start (oneEvent ++ [.receive 0]) = some s ∧
        (s.channels.chan 0).buffer = [] ∧ s.Watching 0 (str "k") :=
    ⟨_, rfl, by decide +kernel, rfl, by decide +kernel, rfl⟩
  obtain ⟨⟨t, ht, hends⟩, -⟩ := ends_iff_empty .raft hrun hw
  exact ⟨s, t, hrun, hw, ht, hends.mpr hbuffer⟩

end Cleanup

end Storage

end VmProxyAuth
