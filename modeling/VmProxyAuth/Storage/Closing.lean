import VmProxyAuth.Lib.Channels
import VmProxyAuth.Storage.Watching

/-!
# Closing the channels of watchers

A channel must not be closed twice, and nothing must be sent on it once it is closed.  The local
storage records the channels it has closed, and forgets the record when it is closed itself.  If a
prefix is watched again then, an old watch of it that is cancelled closes its channel a second
time.  `LocalClosing.proper_iff` says that there is no other misuse.
-/

namespace VmProxyAuth

namespace Storage

/-! ### The local storage -/

namespace LocalStorage

variable {E : Type}

/-- `closeChannelSafely`, with the record of the channels closed. -/
def closeChannelSafely (p : Channels E × Finset ℕ) (w : ℕ) : Channels E × Finset ℕ :=
  if w ∈ p.2 then p else (p.1.close w, insert w p.2)

/-- `removeWatcherAndClose`: the registry it leaves, and the channels with the record of those
closed. -/
def removeWatcherAndClose (watches : Registry GoString) (p : Channels E × Finset ℕ)
    (keyPrefix : GoString) (w : ℕ) : Registry GoString × Channels E × Finset ℕ :=
  match watches.lookup keyPrefix with
  | none => (watches, p)
  | some _ => (watches.remove keyPrefix w, closeChannelSafely p w)

/-- The channels after `Close`, the prefixes visited in the given order. -/
def closeAll (watches : Registry GoString) (p : Channels E × Finset ℕ) (order : List GoString) :
    Channels E :=
  ((watches.channels order).foldl closeChannelSafely p).1

/-- If the channels that are not recorded are open, closing them is no misuse. -/
theorem foldl_closeChannelSafely (l : List ℕ) {p : Channels E × Finset ℕ}
    (h : ∀ w ∈ l, w ∉ p.2 → (p.1.chan w).closed = false) :
  (l.foldl closeChannelSafely p).1.misuses = p.1.misuses ∧
    ∀ w, ((l.foldl closeChannelSafely p).1.chan w).closed = true ↔
      (p.1.chan w).closed = true ∨ (w ∈ l ∧ w ∉ p.2)
  := by
  induction l generalizing p with
  | nil => simp
  | cons w l ih =>
    rw [List.foldl_cons]
    obtain ⟨hw, hl⟩ := List.forall_mem_cons.mp h
    by_cases hrecorded : w ∈ p.2
    · have hstep : closeChannelSafely p w = p := by
        rw [closeChannelSafely, if_pos hrecorded]
      rw [hstep]
      refine ⟨(ih hl).1, ?_⟩
      intro w'
      rw [(ih hl).2 w', List.mem_cons]
      grind
    · have hstep : closeChannelSafely p w = (p.1.close w, insert w p.2) := by
        rw [closeChannelSafely, if_neg hrecorded]
      rw [hstep]
      have hrest : ∀ w' ∈ l, w' ∉ insert w p.2 → ((p.1.close w).chan w').closed = false := by
        intro w' hw' hnot
        rw [Finset.mem_insert, not_or] at hnot
        rw [Channels.closed_close_of_ne hnot.1, hl w' hw' hnot.2]
      obtain ⟨hmisuses, hclosed⟩ := ih (p := (p.1.close w, insert w p.2)) hrest
      refine ⟨hmisuses.trans (Channels.misuses_close (hw hrecorded)), ?_⟩
      intro w'
      rw [hclosed, Channels.closed_close, List.mem_cons, Finset.mem_insert]
      grind

end LocalStorage

namespace LocalClosing

open LocalWatch (Event)

/-- A notification: it has found the storage not closed, or holds the lock and is still to be sent
to some watchers. -/
inductive Notice where
  | checked (key : GoString) (e : Event)
  | sending (e : Event) (targets : List ℕ)

/-- The watchers of the storage: the registry, the prefix of each watcher and its channel, whether
the storage is closed or about to be, the record of the channels closed, the watches that were
cancelled, and the notifications. -/
structure State where
  watches : Registry GoString
  prefixes : List GoString
  channels : Channels Event
  closed : Bool
  closing : Bool
  closedChans : Finset ℕ
  cancelled : Finset ℕ
  notices : GoMap ℕ Notice

/-- A watch begins or is cancelled; a writer begins to notify the watchers, takes the lock, sends
the event to the next one, or returns the lock; a consumer receives an event; or the storage is
closed, and then its watchers. -/
inductive Action where
  | watch (keyPrefix : GoString)
  | cancel (w : ℕ)
  | notify (id : ℕ) (key : GoString) (e : Event)
  | start (id : ℕ) (order : List GoString)
  | send (id : ℕ)
  | finish (id : ℕ)
  | receive (w : ℕ)
  | close
  | closeAll (order : List GoString)

/-- Whether a notification holds the lock. -/
def Notice.isSending : Notice → Bool
  | .checked _ _ => false
  | .sending _ _ => true

/-- Whether no notification holds the lock. -/
def State.idle (s : State) : Bool := s.notices.items.all (fun n => !n.2.isSending)

/-- The state after a watch is cancelled. -/
def State.cancel (s : State) (keyPrefix : GoString) (w : ℕ) : State :=
  let r := LocalStorage.removeWatcherAndClose s.watches (s.channels, s.closedChans) keyPrefix w
  { s with
    watches := r.1
    channels := r.2.1
    closedChans := r.2.2
    cancelled := insert w s.cancelled }

/-- One step of the storage. -/
def step (s : State) : Action → Option State
  | .watch keyPrefix =>
    if s.idle then
      some { s with
             watches := MultiMap.add s.watches keyPrefix s.prefixes.length
             prefixes := s.prefixes ++ [keyPrefix]
             channels := s.channels.set s.prefixes.length (Chan.make watchChannelSize) }
    else none
  | .cancel w =>
    match s.prefixes[w]? with
    | some keyPrefix =>
      if s.idle = true ∧ w ∉ s.cancelled then some (s.cancel keyPrefix w) else none
    | none => none
  | .notify id key e =>
    if s.closing = false ∧ s.notices.lookup id = none then
      if s.closed then some s
      else some { s with notices := s.notices.insert id (.checked key e) }
    else none
  | .start id order =>
    match s.notices.lookup id with
    | some (.checked key e) =>
      if order.Perm s.watches.keys then
        some { s with
               notices := s.notices.insert id (.sending e (s.watches.channels
                 (order.filter (fun keyPrefix => GoString.hasPrefix key keyPrefix)))) }
      else none
    | _ => none
  | .send id =>
    match s.notices.lookup id with
    | some (.sending e (w :: targets)) =>
      some { s with
             channels := s.channels.trySend w e
             notices := s.notices.insert id (.sending e targets) }
    | _ => none
  | .finish id =>
    match s.notices.lookup id with
    | some (.sending _ []) => some { s with notices := s.notices.erase id }
    | _ => none
  | .receive w => some { s with channels := s.channels.tryReceive w }
  | .close =>
    if s.closing then none
    else if s.closed then some s
    else some { s with closed := true, closing := true }
  | .closeAll order =>
    if s.closing = true ∧ s.idle = true ∧ order.Perm s.watches.keys then
      some { s with
             watches := ∅
             channels := LocalStorage.closeAll s.watches (s.channels, s.closedChans) order
             closedChans := ∅
             closing := false }
    else none

/-- The runs of the storage. -/
def machine : Machine State Action := ⟨step⟩

/-- `NewLocalStorage`. -/
def start : State := ⟨∅, [], ⟨fun _ => Chan.make 0, []⟩, false, false, ∅, ∅, ∅⟩

/-- No channel was closed twice, and nothing was sent on a closed one. -/
def Proper (s : State) : Prop := s.channels.misuses = []

/-- A watch that is cancelled is still registered, or its prefix is not watched. -/
def StillRegistered (s : State) : Action → Prop
  | .cancel w => ∀ keyPrefix, s.prefixes[w]? = some keyPrefix →
      w ∈ MultiMap.values s.watches keyPrefix ∨ s.watches.lookup keyPrefix = none
  | _ => True

/-! ### What holds of every state -/

/-- The channels registered are open, and are those of watches that were not cancelled; the
channels of the other watches that were not cancelled are closed, and not recorded; and what is
sent goes to channels that are registered. -/
structure Sound (s : State) : Prop where
  proper : s.watches.Proper (fun w => s.prefixes[w]?)
  registered : ∀ w, s.watches.Lists w → (s.channels.chan w).closed = false ∧ w ∉ s.cancelled
  cancelled : ∀ w ∈ s.cancelled, w < s.prefixes.length
  recorded : ∀ w ∈ s.closedChans, w ∈ s.cancelled
  others : ∀ w < s.prefixes.length, w ∉ s.cancelled → ¬ s.watches.Lists w →
    (s.channels.chan w).closed = true
  targets : ∀ id e targets, s.notices.lookup id = some (.sending e targets) →
    ∀ w ∈ targets, s.watches.Lists w

theorem sound_start :
  Sound start
  := by
  constructor
  · apply Registry.proper_empty
  · intro w hw
    apply absurd hw (Registry.not_lists_empty w)
  · intro w hw
    cases hw
  · intro w hw
    cases hw
  · intro w hw
    cases hw
  · rintro id e targets ⟨⟩

section

variable {s t : State} {a : Action}

/-- Nothing is being sent while no notification holds the lock. -/
theorem not_sending_of_idle (h : s.idle = true) {id : ℕ} {e : Event} {targets : List ℕ} :
  s.notices.lookup id ≠ some (.sending e targets)
  := by
  intro hlookup
  have hnot := List.all_eq_true.mp h _ (GoMap.mem_items.mpr hlookup)
  cases hnot

/-- A change of the notifications alone. -/
theorem Sound.notices (hs : Sound s) {notices : GoMap ℕ Notice}
    (htargets : ∀ id e targets, notices.lookup id = some (.sending e targets) →
      ∀ w ∈ targets, s.watches.Lists w) :
  Sound { s with notices := notices }
  := ⟨hs.proper, hs.registered, hs.cancelled, hs.recorded, hs.others, htargets⟩

/-- A change of the channels that opens and closes none. -/
theorem Sound.channels (hs : Sound s) {channels : Channels Event}
    (h : ∀ w, (channels.chan w).closed = (s.channels.chan w).closed) :
  Sound { s with channels := channels }
  := by
  refine ⟨hs.proper, ?_, hs.cancelled, hs.recorded, ?_, hs.targets⟩
  · intro w hw
    exact ⟨(h w).trans (hs.registered w hw).1, (hs.registered w hw).2⟩
  · intro w hlt hnot hlists
    apply (h w).trans (hs.others w hlt hnot hlists)

theorem Sound.watch (hs : Sound s) (hidle : s.idle = true) (keyPrefix : GoString) :
  Sound { s with
          watches := MultiMap.add s.watches keyPrefix s.prefixes.length
          prefixes := s.prefixes ++ [keyPrefix]
          channels := s.channels.set s.prefixes.length (Chan.make watchChannelSize) }
  := by
  -- The number of the new channel is not in use.
  have hold : ∀ w, w ≠ s.prefixes.length →
      (s.channels.set s.prefixes.length (Chan.make watchChannelSize)).chan w
        = s.channels.chan w := by
    intro w hw
    rw [Channels.chan_set, if_neg hw]
  constructor
  · exact hs.proper.register keyPrefix
  · intro w hw
    rcases Registry.lists_add.mp hw with hlisted | rfl
    · obtain ⟨hopen, hnot⟩ := hs.registered w hlisted
      dsimp only
      rw [hold w (hs.proper.lt_length hlisted).ne]
      exact ⟨hopen, hnot⟩
    · dsimp only
      rw [Channels.chan_set, if_pos rfl]
      refine ⟨rfl, ?_⟩
      intro hcancelled
      apply lt_irrefl _ (hs.cancelled _ hcancelled)
  · intro w hw
    rw [List.length_append]
    apply Nat.lt_add_right _ (hs.cancelled w hw)
  · apply hs.recorded
  · intro w hlt hnot hlists
    rw [Registry.lists_add, not_or] at hlists
    rw [List.length_append, List.length_singleton] at hlt
    dsimp only
    rw [hold w hlists.2]
    apply hs.others w (by omega) hnot hlists.1
  · intro id e targets hlookup
    apply absurd hlookup (not_sending_of_idle hidle)

/-- A watch is cancelled. -/
theorem Sound.cancel (hs : Sound s) (hidle : s.idle = true) {keyPrefix : GoString} {w : ℕ}
    (hw : s.prefixes[w]? = some keyPrefix) (hnot : w ∉ s.cancelled) :
  Sound (s.cancel keyPrefix w)
  := by
  have hcancelled : ∀ w' ∈ insert w s.cancelled, w' < s.prefixes.length := by
    rw [Finset.forall_mem_insert]
    exact ⟨(List.getElem?_eq_some_iff.mp hw).1, hs.cancelled⟩
  have hkey : ∀ k, w ∈ MultiMap.values s.watches k → k = keyPrefix := by
    intro k hk
    apply Option.some.inj (((hs.proper k).2 w hk).symm.trans hw)
  rw [State.cancel, LocalStorage.removeWatcherAndClose]
  cases hlookup : s.watches.lookup keyPrefix with
  | none =>
    have hunlisted : ¬ s.watches.Lists w := by
      rintro ⟨k, hk⟩
      obtain rfl := hkey k hk
      rw [MultiMap.values, hlookup] at hk
      cases hk
    refine ⟨hs.proper, ?_, hcancelled, ?_, ?_, hs.targets⟩
    · intro w' hw'
      refine ⟨(hs.registered w' hw').1, ?_⟩
      rw [Finset.mem_insert, not_or]
      exact ⟨fun h => hunlisted (h ▸ hw'), (hs.registered w' hw').2⟩
    · intro w' hw'
      apply Finset.mem_insert_of_mem (hs.recorded w' hw')
    · intro w' hlt hnot' hlists
      rw [Finset.mem_insert, not_or] at hnot'
      apply hs.others w' hlt hnot'.2 hlists
  | some channels =>
    have hunrecorded : w ∉ s.closedChans := fun h => hnot (hs.recorded w h)
    dsimp only [LocalStorage.closeChannelSafely]
    rw [if_neg hunrecorded]
    constructor
    · apply hs.proper.remove
    · intro w' hw'
      obtain ⟨hw', hne⟩ := (hs.proper.lists_remove hw w').mp hw'
      dsimp only
      rw [Channels.closed_close_of_ne hne, Finset.mem_insert, not_or]
      exact ⟨(hs.registered w' hw').1, hne, (hs.registered w' hw').2⟩
    · apply hcancelled
    · intro w' hw'
      rcases Finset.mem_insert.mp hw' with rfl | hold
      · apply Finset.mem_insert_self
      · apply Finset.mem_insert_of_mem (hs.recorded w' hold)
    · intro w' hlt hnot' hlists
      rw [Finset.mem_insert, not_or] at hnot'
      rw [hs.proper.lists_remove hw] at hlists
      dsimp only
      rw [Channels.closed_close_of_ne hnot'.1]
      apply hs.others w' hlt hnot'.2
      intro hw'
      apply hlists ⟨hw', hnot'.1⟩
    · intro id e targets hsending
      apply absurd hsending (not_sending_of_idle hidle)

theorem proper_cancel_iff (hs : Sound s) (hproper : Proper s) {keyPrefix : GoString} {w : ℕ}
    (hw : s.prefixes[w]? = some keyPrefix) (hnot : w ∉ s.cancelled) :
  Proper (s.cancel keyPrefix w) ↔
    w ∈ MultiMap.values s.watches keyPrefix ∨ s.watches.lookup keyPrefix = none
  := by
  have hunrecorded : w ∉ s.closedChans := fun hw => hnot (hs.recorded w hw)
  rw [Proper, State.cancel, LocalStorage.removeWatcherAndClose]
  cases hlookup : s.watches.lookup keyPrefix with
  | none => apply iff_of_true hproper (.inr rfl)
  | some channels =>
    dsimp only [LocalStorage.closeChannelSafely]
    rw [if_neg hunrecorded]
    by_cases hlisted : w ∈ MultiMap.values s.watches keyPrefix
    · apply iff_of_true _ (.inl hlisted)
      rw [Channels.misuses_close (hs.registered w ⟨keyPrefix, hlisted⟩).1]
      apply hproper
    · have hclosed : (s.channels.chan w).closed = true := by
        apply hs.others w (List.getElem?_eq_some_iff.mp hw).1 hnot
        rintro ⟨k, hk⟩
        obtain rfl := Option.some.inj (((hs.proper k).2 w hk).symm.trans hw)
        apply hlisted hk
      apply iff_of_false (Channels.misuses_close_ne_nil hclosed)
      simp [hlisted]

/-- The channels registered can be closed one after the other. -/
theorem foldl_channels (hs : Sound s) (order : List GoString) :
  (LocalStorage.closeAll s.watches (s.channels, s.closedChans) order).misuses
      = s.channels.misuses ∧
    ∀ w, ((LocalStorage.closeAll s.watches (s.channels, s.closedChans) order).chan w).closed = true
      ↔ (s.channels.chan w).closed = true ∨
        (w ∈ s.watches.channels order ∧ w ∉ s.closedChans)
  := by
  apply LocalStorage.foldl_closeChannelSafely
  intro w hw _
  apply (hs.registered w (Registry.mem_channels hw)).1

theorem Sound.closeAll (hs : Sound s) (hidle : s.idle = true) {order : List GoString}
    (horder : order.Perm s.watches.keys) :
  Sound { s with
          watches := ∅
          channels := LocalStorage.closeAll s.watches (s.channels, s.closedChans) order
          closedChans := ∅
          closing := false }
  := by
  obtain ⟨-, hclosed⟩ := foldl_channels hs order
  constructor
  · apply Registry.proper_empty
  · intro w hw
    apply absurd hw (Registry.not_lists_empty w)
  · apply hs.cancelled
  · intro w hw
    cases hw
  · intro w hlt hnot _
    apply (hclosed w).mpr
    by_cases hlists : s.watches.Lists w
    · right
      refine ⟨(Registry.mem_channels_iff horder).mpr hlists, ?_⟩
      intro hw
      apply hnot (hs.recorded w hw)
    · left
      apply hs.others w hlt hnot hlists
  · intro id e targets hlookup
    apply absurd hlookup (not_sending_of_idle hidle)

/-- A step is no misuse exactly if it is no cancellation that finds its prefix watched again. -/
theorem step_spec (hs : Sound s) (hproper : Proper s) (h : machine.step s a = some t) :
  (Proper t ↔ StillRegistered s a) ∧ Sound t
  := by
  cases a with
  | watch keyPrefix =>
    obtain ⟨hidle, ⟨⟩⟩ := Option.ite_none_right_eq_some.mp h
    exact ⟨iff_of_true hproper trivial, hs.watch hidle keyPrefix⟩
  | cancel w =>
    dsimp only [machine, step] at h
    split at h
    · rename_i keyPrefix hw
      obtain ⟨⟨hidle, hnot⟩, ⟨⟩⟩ := Option.ite_none_right_eq_some.mp h
      have hstill : StillRegistered s (.cancel w) ↔
          w ∈ MultiMap.values s.watches keyPrefix ∨ s.watches.lookup keyPrefix = none := by
        simp [StillRegistered, hw]
      rw [hstill]
      exact ⟨proper_cancel_iff hs hproper hw hnot, hs.cancel hidle hw hnot⟩
    · cases h
  | notify id key e =>
    obtain ⟨-, h⟩ := Option.ite_none_right_eq_some.mp h
    split_ifs at h with hclosed
    · obtain rfl := Option.some.inj h
      exact ⟨iff_of_true hproper trivial, hs⟩
    · obtain rfl := Option.some.inj h
      refine ⟨iff_of_true hproper trivial, hs.notices ?_⟩
      intro id' e' targets hlookup
      rcases GoMap.lookup_insert_eq_some.mp hlookup with ⟨-, ⟨⟩⟩ | ⟨-, hold⟩
      apply hs.targets id' e' targets hold
  | start id order =>
    dsimp only [machine, step] at h
    split at h
    · obtain ⟨horder, ⟨⟩⟩ := Option.ite_none_right_eq_some.mp h
      refine ⟨iff_of_true hproper trivial, hs.notices ?_⟩
      intro id' e' targets hlookup
      rcases GoMap.lookup_insert_eq_some.mp hlookup with ⟨-, ⟨⟩⟩ | ⟨-, hold⟩
      · intro w hw
        apply Registry.mem_channels hw
      · apply hs.targets id' e' targets hold
    · cases h
  | send id =>
    dsimp only [machine, step] at h
    split at h
    · rename_i e w targets hlookup
      obtain rfl := Option.some.inj h
      have hopen := (hs.registered w (hs.targets id e _ hlookup w List.mem_cons_self)).1
      refine ⟨iff_of_true ?_ trivial, ?_⟩
      · apply (Channels.misuses_trySend_eq_nil_iff hproper).mpr hopen
      · refine (hs.channels (Channels.closed_trySend w e)).notices ?_
        intro id' e' targets' hlookup'
        rcases GoMap.lookup_insert_eq_some.mp hlookup' with ⟨-, ⟨⟩⟩ | ⟨-, hold⟩
        · intro w' hw'
          apply hs.targets id e _ hlookup w' (List.mem_cons_of_mem w hw')
        · apply hs.targets id' e' targets' hold
    · cases h
  | finish id =>
    dsimp only [machine, step] at h
    split at h
    · obtain rfl := Option.some.inj h
      refine ⟨iff_of_true hproper trivial, hs.notices ?_⟩
      intro id' e' targets hlookup
      apply hs.targets id' e' targets (GoMap.lookup_erase_eq_some.mp hlookup).2
    · cases h
  | receive w =>
    obtain rfl := Option.some.inj h
    refine ⟨iff_of_true ?_ trivial, hs.channels (Channels.closed_tryReceive w)⟩
    rw [Proper, Channels.misuses_tryReceive]
    apply hproper
  | close =>
    dsimp only [machine, step] at h
    split_ifs at h
    · obtain rfl := Option.some.inj h
      exact ⟨iff_of_true hproper trivial, hs⟩
    · obtain rfl := Option.some.inj h
      exact ⟨iff_of_true hproper trivial, hs.proper, hs.registered, hs.cancelled,
        hs.recorded, hs.others, hs.targets⟩
  | closeAll order =>
    obtain ⟨⟨-, hidle, horder⟩, ⟨⟩⟩ := Option.ite_none_right_eq_some.mp h
    refine ⟨iff_of_true ?_ trivial, hs.closeAll hidle horder⟩
    apply (foldl_channels hs order).1.trans hproper

end

/-- The channels are used properly along a run exactly if no watch is cancelled that is not
registered any more while its prefix is watched again. -/
theorem proper_iff (actions : List Action) :
  machine.Always Proper start actions ↔ machine.Meets StillRegistered start actions
  := by
  apply Machine.always_iff_meets_of_next (J := fun s => Sound s ∧ Proper s)
  · intro s a t hs ht hstep
    exact ⟨(step_spec hs.1 hs.2 hstep).2, ht⟩
  · intro s a t hs _ hstep
    apply (step_spec hs.1 hs.2 hstep).1
  · exact ⟨sound_start, rfl⟩
  · rfl

end LocalClosing

end Storage

end VmProxyAuth
