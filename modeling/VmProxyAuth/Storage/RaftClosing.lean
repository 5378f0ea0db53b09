import VmProxyAuth.Storage.Cleanup
import VmProxyAuth.Storage.Closing

/-!
# Closing the channels of watchers of the Raft storage

The storage and its state machine have a registry of watchers each, with a lock of its own.
`Watch` adds the channel to the one and then to the other; when its context is cancelled, the
channel is taken off both, polled, and closed if nothing was received.  `Close` polls and closes
the channels of the first registry while events may still be sent to the channels of the second
one, and then does the same with the second registry.  No channel is closed twice, and an event
is sent on a closed channel only if `Close` has closed it through the first registry
(`RaftClosing.proper_iff`).
-/

namespace VmProxyAuth

namespace Storage

namespace RaftClosing

/-- How far a watch has come: it is registered with the storage only, or with the state machine,
too; it is cancelled, and off the first registry, or off both; its channel was polled and is to be
closed; or nothing more happens to it. -/
inductive Stage where
  | adding
  | watching
  | leaving
  | left
  | closing
  | over
  deriving DecidableEq

/-- How far `Close` has come: it has not begun; it has set the flag; it holds the lock of the
storage and has some channels to poll, or to close the one it has polled; it holds the lock of the
state machine, too, and does the same; or it is done. -/
inductive Phase where
  | running
  | flagged
  | storage (todo : List ℕ)
  | storageClose (w : ℕ) (todo : List ℕ)
  | fsm (todo : List ℕ)
  | fsmClose (w : ℕ) (todo : List ℕ)
  | done

/-- Whether `Close` holds the lock of the storage. -/
def Phase.locksStorage : Phase → Bool
  | .running => false
  | .flagged => false
  | .done => false
  | _ => true

/-- Whether `Close` holds the lock of the state machine. -/
def Phase.locksFsm : Phase → Bool
  | .fsm _ => true
  | .fsmClose _ _ => true
  | _ => false

/-- A notification: it waits for the lock of the state machine, or holds it and is still to be
sent to some watchers. -/
inductive Notice where
  | posted (e : StateEvent)
  | sending (e : StateEvent) (targets : List ℕ)

/-- Whether a notification holds the lock. -/
def Notice.isSending : Notice → Bool
  | .posted _ => false
  | .sending _ _ => true

/-- The two registries; the prefix of each watcher, its channel and how far it has come; how far
`Close` has come; the calls of `Watch` that have found the storage not closed; and the
notifications.  Beside them, the channels that `Close` has closed through the first registry. -/
structure State where
  watchChans : Registry GoString
  fsm : Registry GoString
  prefixes : List GoString
  channels : Channels StateEvent
  stage : ℕ → Stage
  phase : Phase
  checked : List GoString
  notices : GoMap ℕ Notice
  closedFirst : Finset ℕ

/-- The steps of `Watch`, of the end of a watch, of a write and its notification, of a consumer
and of `Close`. -/
inductive Action where
  | check (keyPrefix : GoString)
  | watch (keyPrefix : GoString)
  | addWatcher (w : ℕ)
  | cancel (w : ℕ)
  | removeWatcher (w : ℕ)
  | poll (w : ℕ)
  | closeChan (w : ℕ)
  | apply (id : ℕ) (e : StateEvent)
  | start (id : ℕ) (order : List GoString)
  | send (id : ℕ)
  | finish (id : ℕ)
  | receive (w : ℕ)
  | close
  | closeAll (order : List GoString)
  | closePoll
  | closeNext
  | closeFsm (order : List GoString)
  | closed

/-- Whether the lock of the state machine is free. -/
def State.fsmFree (s : State) : Bool :=
  !s.phase.locksFsm && s.notices.items.all (fun n => !n.2.isSending)

/-- A watch goes on to a stage. -/
def State.setStage (s : State) (w : ℕ) (stage : Stage) : State :=
  { s with stage := Function.update s.stage w stage }

/-- One step of the storage. -/
def step (s : State) : Action → Option State
  | .check keyPrefix =>
    match s.phase with
    | .running => some { s with checked := s.checked ++ [keyPrefix] }
    | _ => if s.phase.locksStorage then none else some s
  | .watch keyPrefix =>
    if s.phase.locksStorage = false ∧ keyPrefix ∈ s.checked then
      some { s with
             watchChans := MultiMap.add s.watchChans keyPrefix s.prefixes.length
             prefixes := s.prefixes ++ [keyPrefix]
             channels := s.channels.set s.prefixes.length (Chan.make watchChannelSize)
             stage := Function.update s.stage s.prefixes.length .adding
             checked := s.checked.erase keyPrefix }
    else none
  | .addWatcher w =>
    match s.prefixes[w]? with
    | some keyPrefix =>
      if s.stage w = .adding ∧ s.fsmFree = true then
        some { s.setStage w .watching with fsm := MultiMap.add s.fsm keyPrefix w }
      else none
    | none => none
  | .cancel w =>
    match s.prefixes[w]? with
    | some keyPrefix =>
      if s.stage w = .watching ∧ s.phase.locksStorage = false then
        some { s.setStage w .leaving with watchChans := s.watchChans.remove keyPrefix w }
      else none
    | none => none
  | .removeWatcher w =>
    match s.prefixes[w]? with
    | some keyPrefix =>
      if s.stage w = .leaving ∧ s.fsmFree = true then
        some { s.setStage w .left with fsm := s.fsm.remove keyPrefix w }
      else none
    | none => none
  | .poll w =>
    if s.stage w = .left then
      some { s.setStage w (if (s.channels.poll w).1 then .closing else .over) with
             channels := (s.channels.poll w).2 }
    else none
  | .closeChan w =>
    if s.stage w = .closing then
      some { s.setStage w .over with channels := s.channels.close w }
    else none
  | .apply id e =>
    if s.fsmFree = true ∧ s.notices.lookup id = none then
      some { s with notices := s.notices.insert id (.posted e) }
    else none
  | .start id order =>
    match s.notices.lookup id with
    | some (.posted e) =>
      if s.phase.locksFsm = false ∧ order.Perm s.fsm.keys then
        some { s with
               notices := s.notices.insert id (.sending e (s.fsm.channels
                 (order.filter (fun keyPrefix => GoString.hasPrefix (str e.key) keyPrefix)))) }
      else none
    | _ => none
  | .send id =>
    match s.notices.lookup id with
    | some (.sending e (w :: targets)) =>
      some { s with
             channels := s.channels.trySend w e
             notices := s.notices.insert id (.sending e targets) }
    | _ => none
  | .finish id =>
    match s.notices.lookup id with
    | some (.sending _ []) => some { s with notices := s.notices.erase id }
    | _ => none
  | .receive w => some { s with channels := s.channels.tryReceive w }
  | .close =>
    match s.phase with
    | .running => some { s with phase := .flagged }
    | _ => if s.phase.locksStorage then none else some s
  | .closeAll order =>
    match s.phase with
    | .flagged =>
      if order.Perm s.watchChans.keys then
        some { s with phase := .storage (s.watchChans.channels order) }
      else none
    | _ => none
  | .closePoll =>
    match s.phase with
    | .storage (w :: todo) =>
      some { s with
             channels := (s.channels.poll w).2
             phase := if (s.channels.poll w).1 then .storageClose w todo else .storage todo }
    | .fsm (w :: todo) =>
      some { s with
             channels := (s.channels.poll w).2
             phase := if (s.channels.poll w).1 then .fsmClose w todo else .fsm todo }
    | _ => none
  | .closeNext =>
    match s.phase with
    | .storageClose w todo =>
      some { s with
             channels := s.channels.close w
             phase := .storage todo
             closedFirst := insert w s.closedFirst }
    | .fsmClose w todo => some { s with channels := s.channels.close w, phase := .fsm todo }
    | _ => none
  | .closeFsm order =>
    match s.phase with
    | .storage [] =>
      if s.fsmFree = true ∧ order.Perm s.fsm.keys then
        some { s with watchChans := ∅, phase := .fsm (s.fsm.channels order) }
      else none
    | _ => none
  | .closed =>
    match s.phase with
    | .fsm [] => some { s with fsm := ∅, phase := .done }
    | _ => none

/-- The runs of the storage. -/
def machine : Machine State Action := ⟨step⟩

/-- A new storage. -/
def start : State :=
  ⟨∅, ∅, [], ⟨fun _ => Chan.make 0, []⟩, fun _ => .over, .running, [], ∅, ∅⟩

/-- No channel was closed twice, and nothing was sent on a closed one. -/
def Proper (s : State) : Prop := s.channels.misuses = []

/-- The watcher an event is sent to next. -/
def State.target (s : State) (id : ℕ) : Option ℕ :=
  match s.notices.lookup id with
  | some (.sending _ (w :: _)) => some w
  | _ => none

/-- An event is sent to a watcher whose channel `Close` has not closed through the first
registry. -/
def NotClosedFirst (s : State) : Action → Prop
  | .send id => ∀ w ∈ s.target id, w ∉ s.closedFirst
  | _ => True

/-! ### A cancellation alone -/

/-- The steps of the end of a watch. -/
def cancelSteps (s : State) (w : ℕ) : List Action :=
  if (s.channels.poll w).1 then [.cancel w, .removeWatcher w, .poll w, .closeChan w]
  else [.cancel w, .removeWatcher w, .poll w]

/-- With nothing in between, the steps are those of `removeWatcherAndClose`. -/
theorem run_cancelSteps {s : State} {w : ℕ} {keyPrefix : GoString}
    (hw : s.prefixes[w]? = some keyPrefix) (hstage : s.stage w = .watching)
    (hstorage : s.phase.locksStorage = false) (hfsm : s.fsmFree = true) :
  ∃ t, machine.run s (cancelSteps s w) = some t ∧
    (t.watchChans, t.fsm, t.channels)
      = RaftStorage.removeWatcherAndClose s.watchChans s.fsm s.channels keyPrefix w
  := by
  rw [cancelSteps, RaftStorage.removeWatcherAndClose, Channels.pollClose]
  rw [State.fsmFree] at hfsm
  cases hpoll : (s.channels.poll w).1 with
  | true =>
    simp [Machine.run, machine, step, State.setStage, State.fsmFree, hw, hstage, hstorage, hfsm,
      hpoll]
  | false =>
    simp [Machine.run, machine, step, State.setStage, State.fsmFree, hw, hstage, hstorage, hfsm,
      hpoll]

/-! ### What holds of every state -/

/-- What holds of a watch: its stage says in which registries it is listed, and only a watch that
was begun has a stage; while the state machine may send to its channel, the channel is open or
was closed through the first registry; and it is open when the watch is about to close it. -/
structure Fits (s : State) (w : ℕ) : Prop where
  storage : s.watchChans.Lists w → s.stage w = .adding ∨ s.stage w = .watching
  fsm : s.fsm.Lists w → s.stage w = .watching ∨ s.stage w = .leaving
  begun : s.stage w ≠ .over → w < s.prefixes.length
  sent : s.fsm.Lists w → (s.channels.chan w).closed = true →
    w ∈ s.closedFirst ∨ s.phase.locksFsm = true
  adding : s.stage w = .adding → (s.channels.chan w).closed = true → w ∈ s.closedFirst
  closing : s.stage w = .closing → (s.channels.chan w).closed = false
  closedFirst : w ∈ s.closedFirst → (s.channels.chan w).closed = true ∧ w < s.prefixes.length

/-- What holds of `Close`: it has to do with channels of the registry whose lock it holds, and the
one it is about to close is open. -/
def Phase.Fits (s : State) : Phase → Prop
  | .storage todo => ∀ w ∈ todo, s.watchChans.Lists w
  | .storageClose w todo =>
    (∀ w' ∈ w :: todo, s.watchChans.Lists w') ∧ (s.channels.chan w).closed = false
  | .fsm todo => ∀ w ∈ todo, s.fsm.Lists w
  | .fsmClose w todo =>
    (∀ w' ∈ w :: todo, s.fsm.Lists w') ∧ (s.channels.chan w).closed = false
  | _ => True

/-- What holds of every state.  An event is sent to channels in the second registry, and `Close`
does not hold its lock then. -/
structure Sound (s : State) : Prop where
  storage : s.watchChans.Proper (fun w => s.prefixes[w]?)
  fsm : s.fsm.Proper (fun w => s.prefixes[w]?)
  watchers : ∀ w, Fits s w
  phase : s.phase.Fits s
  targets : ∀ id e targets, s.notices.lookup id = some (.sending e targets) →
    s.phase.locksFsm = false ∧ ∀ w ∈ targets, s.fsm.Lists w

theorem sound_start :
  Sound start
  := by
  refine ⟨Registry.proper_empty, Registry.proper_empty, ?_, trivial, ?_⟩
  · intro w
    constructor
    · intro hw
      apply absurd hw (Registry.not_lists_empty w)
    · intro hw
      apply absurd hw (Registry.not_lists_empty w)
    · intro hover
      apply absurd rfl hover
    · intro hw
      apply absurd hw (Registry.not_lists_empty w)
    · rintro ⟨⟩
    · rintro ⟨⟩
    · intro hw
      cases hw
  · rintro id e targets ⟨⟩

section

variable {s t : State} {w : ℕ}

/-- A step that has nothing to do with a watch. -/
theorem Fits.of_same (h : Fits s w) (hstorage : t.watchChans.Lists w → s.watchChans.Lists w)
    (hfsm : t.fsm.Lists w → s.fsm.Lists w) (hstage : t.stage w = s.stage w)
    (hclosed : (t.channels.chan w).closed = (s.channels.chan w).closed)
    (hfirst : w ∈ t.closedFirst ↔ w ∈ s.closedFirst)
    (hbegun : s.prefixes.length ≤ t.prefixes.length)
    (hphase : t.fsm.Lists w → s.phase.locksFsm = true → t.phase.locksFsm = true) :
  Fits t w
  := by
  constructor
  · rw [hstage]
    apply h.storage ∘ hstorage
  · rw [hstage]
    apply h.fsm ∘ hfsm
  · rw [hstage]
    intro hover
    apply (h.begun hover).trans_le hbegun
  · rw [hclosed, hfirst]
    intro hw hc
    apply (h.sent (hfsm hw) hc).imp_right (hphase hw)
  · rw [hstage, hclosed, hfirst]
    apply h.adding
  · rw [hstage, hclosed]
    apply h.closing
  · rw [hclosed, hfirst]
    intro hw
    exact ⟨(h.closedFirst hw).1, (h.closedFirst hw).2.trans_le hbegun⟩

/-- A step that changes neither `Close` nor the registry it has locked, nor closes a channel that
is listed. -/
theorem Phase.Fits.of_same {phase : Phase} (h : phase.Fits s)
    (hstorage : phase.locksStorage = true → ∀ w, s.watchChans.Lists w → t.watchChans.Lists w)
    (hfsm : phase.locksFsm = true → ∀ w, s.fsm.Lists w → t.fsm.Lists w)
    (hopen : ∀ w, s.watchChans.Lists w ∨ s.fsm.Lists w → (s.channels.chan w).closed = false →
      (t.channels.chan w).closed = false) :
  phase.Fits t
  := by
  cases phase with
  | running => trivial
  | flagged => trivial
  | storage todo => exact fun w hw => hstorage rfl w (h w hw)
  | storageClose w todo =>
    exact ⟨fun w' hw' => hstorage rfl w' (h.1 w' hw'),
      hopen w (.inl (h.1 w List.mem_cons_self)) h.2⟩
  | fsm todo => exact fun w hw => hfsm rfl w (h w hw)
  | fsmClose w todo =>
    exact ⟨fun w' hw' => hfsm rfl w' (h.1 w' hw'), hopen w (.inr (h.1 w List.mem_cons_self)) h.2⟩
  | done => trivial

theorem Phase.fits_of_unlocked {phase : Phase} (h : phase.locksStorage = false) (s : State) :
  phase.Fits s
  := by
  cases phase with
  | running => trivial
  | flagged => trivial
  | storage todo => cases h
  | storageClose w todo => cases h
  | fsm todo => cases h
  | fsmClose w todo => cases h
  | done => trivial

theorem Sound.fits (hs : Sound s) {phase : Phase} (hphase : s.phase = phase) :
  phase.Fits s
  := hphase ▸ hs.phase

/-- Nothing is being sent while `Close` has the lock of the state machine. -/
theorem Sound.not_sending (hs : Sound s) (hlocks : s.phase.locksFsm = true) {id : ℕ}
    {e : StateEvent} {targets : List ℕ} :
  s.notices.lookup id ≠ some (.sending e targets)
  := by
  intro hlookup
  cases hlocks.symm.trans (hs.targets id e targets hlookup).1

/-- Nothing is being sent while the lock of the state machine is free. -/
theorem not_sending_of_free (h : s.fsmFree = true) {id : ℕ} {e : StateEvent} {targets : List ℕ} :
  s.notices.lookup id ≠ some (.sending e targets)
  := by
  intro hlookup
  rw [State.fsmFree, Bool.and_eq_true] at h
  have hnot := List.all_eq_true.mp h.2 _ (GoMap.mem_items.mpr hlookup)
  cases hnot

theorem locksFsm_of_free (h : s.fsmFree = true) :
  s.phase.locksFsm = false
  := by
  rw [State.fsmFree, Bool.and_eq_true, Bool.not_eq_true'] at h
  apply h.1

/-- A change of what is buffered, of the notifications, or of the calls of `Watch`. -/
theorem Sound.of_same (hs : Sound s) (hstorage : t.watchChans = s.watchChans)
    (hfsm : t.fsm = s.fsm) (hprefixes : t.prefixes = s.prefixes) (hstage : t.stage = s.stage)
    (hclosed : ∀ w, (t.channels.chan w).closed = (s.channels.chan w).closed)
    (hfirst : t.closedFirst = s.closedFirst) (hphase : t.phase = s.phase)
    (htargets : ∀ id e targets, t.notices.lookup id = some (.sending e targets) →
      s.phase.locksFsm = false ∧ ∀ w ∈ targets, s.fsm.Lists w) :
  Sound t
  := by
  refine ⟨hstorage ▸ hprefixes ▸ hs.storage, hfsm ▸ hprefixes ▸ hs.fsm, ?_, ?_, ?_⟩
  · intro w
    apply (hs.watchers w).of_same
    · rw [hstorage]
      exact fun h => h
    · rw [hfsm]
      exact fun h => h
    · rw [hstage]
    · apply hclosed
    · rw [hfirst]
    · rw [hprefixes]
    · rw [hphase]
      exact fun _ h => h
  · rw [hphase]
    apply hs.phase.of_same
    · rw [hstorage]
      exact fun _ _ h => h
    · rw [hfsm]
      exact fun _ _ h => h
    · intro w _ hopen
      rw [hclosed, hopen]
  · rw [hfsm, hphase]
    apply htargets

end

/-! ### The steps of a watch -/

section

variable {s : State} {w : ℕ} {keyPrefix : GoString}

/-- The other watches are not concerned by a change of stage. -/
theorem stage_setStage_of_ne {w' : ℕ} (h : w' ≠ w) (stage : Stage) :
  (s.setStage w stage).stage w' = s.stage w'
  := Function.update_of_ne h _ _

theorem stage_setStage_self (stage : Stage) :
  (s.setStage w stage).stage w = stage
  := Function.update_self _ _ _

theorem Sound.watch (hs : Sound s) (hfree : s.phase.locksStorage = false)
    (keyPrefix : GoString) :
  Sound { s with
          watchChans := MultiMap.add s.watchChans keyPrefix s.prefixes.length
          prefixes := s.prefixes ++ [keyPrefix]
          channels := s.channels.set s.prefixes.length (Chan.make watchChannelSize)
          stage := Function.update s.stage s.prefixes.length .adding
          checked := s.checked.erase keyPrefix }
  := by
  have hlength : s.prefixes.length < (s.prefixes ++ [keyPrefix]).length := by
    rw [List.length_append]
    apply Nat.lt_succ_self
  refine ⟨hs.storage.register keyPrefix, hs.fsm.append keyPrefix, ?_,
    Phase.fits_of_unlocked hfree _, hs.targets⟩
  intro w
  by_cases hw : w = s.prefixes.length
  · subst hw
    -- The number was not in use: the channel is new, and in the first registry only.
    have hfsm : ¬ s.fsm.Lists s.prefixes.length := fun h => lt_irrefl _ (hs.fsm.lt_length h)
    have hfirst : s.prefixes.length ∉ s.closedFirst :=
      fun h => lt_irrefl _ ((hs.watchers _).closedFirst h).2
    have hnew : (s.channels.set s.prefixes.length (Chan.make watchChannelSize)).chan
        s.prefixes.length = Chan.make watchChannelSize := by
      rw [Channels.chan_set, if_pos rfl]
    constructor
    · intro _
      left
      apply Function.update_self
    · intro h
      apply absurd h hfsm
    · intro _
      apply hlength
    · intro h
      apply absurd h hfsm
    · intro _ hclosed
      dsimp only at hclosed
      rw [hnew] at hclosed
      cases hclosed
    · intro _
      dsimp only
      rw [hnew]
      rfl
    · intro h
      apply absurd h hfirst
  · refine (hs.watchers w).of_same ?_ (fun h => h) (Function.update_of_ne hw _ _) ?_ Iff.rfl
      hlength.le (fun _ h => h)
    · intro h
      apply (Registry.lists_add.mp h).resolve_right hw
    · dsimp only
      rw [Channels.chan_set, if_neg hw]

theorem Sound.addWatcher (hs : Sound s) (hw : s.prefixes[w]? = some keyPrefix)
    (hstage : s.stage w = .adding) (hfree : s.fsmFree = true) :
  Sound { s.setStage w .watching with fsm := MultiMap.add s.fsm keyPrefix w }
  := by
  have hunlisted : ¬ s.fsm.Lists w := by
    intro h
    have hfsm := (hs.watchers w).fsm h
    simp [hstage] at hfsm
  refine ⟨hs.storage, hs.fsm.add hw hunlisted, ?_, ?_, ?_⟩
  · intro w'
    by_cases hne : w' = w
    · subst hne
      constructor
      · intro _
        right
        apply stage_setStage_self
      · intro _
        left
        apply stage_setStage_self
      · intro _
        apply (List.getElem?_eq_some_iff.mp hw).1
      · intro _ hclosed
        left
        apply (hs.watchers w').adding hstage hclosed
      · intro h
        rw [stage_setStage_self] at h
        cases h
      · intro h
        rw [stage_setStage_self] at h
        cases h
      · apply (hs.watchers w').closedFirst
    · refine (hs.watchers w').of_same (fun h => h) ?_ (stage_setStage_of_ne hne _) rfl Iff.rfl
        le_rfl (fun _ h => h)
      intro h
      apply (Registry.lists_add.mp h).resolve_right hne
  · refine Phase.Fits.of_same hs.phase (fun _ _ h => h) ?_ (fun _ _ h => h)
    intro _ w' h
    apply Registry.lists_add.mpr (.inl h)
  · intro id e targets h
    apply absurd h (not_sending_of_free hfree)

theorem Sound.cancel (hs : Sound s) (hw : s.prefixes[w]? = some keyPrefix)
    (hstage : s.stage w = .watching) (hfree : s.phase.locksStorage = false) :
  Sound { s.setStage w .leaving with watchChans := s.watchChans.remove keyPrefix w }
  := by
  refine ⟨hs.storage.remove keyPrefix w, hs.fsm, ?_, Phase.fits_of_unlocked hfree _, hs.targets⟩
  intro w'
  by_cases hne : w' = w
  · subst hne
    constructor
    · intro h
      apply absurd rfl ((hs.storage.lists_remove hw w').mp h).2
    · intro _
      right
      apply stage_setStage_self
    · intro _
      apply (List.getElem?_eq_some_iff.mp hw).1
    · apply (hs.watchers w').sent
    · intro h
      rw [stage_setStage_self] at h
      cases h
    · intro h
      rw [stage_setStage_self] at h
      cases h
    · apply (hs.watchers w').closedFirst
  · refine (hs.watchers w').of_same ?_ (fun h => h) (stage_setStage_of_ne hne _) rfl Iff.rfl le_rfl
      (fun _ h => h)
    intro h
    apply ((hs.storage.lists_remove hw w').mp h).1

/-- A watch that is in neither registry. -/
theorem fits_of_unlisted {t : State} (hstorage : ¬ t.watchChans.Lists w) (hfsm : ¬ t.fsm.Lists w)
    (hstage : t.stage w ≠ .adding) (hbegun : w < t.prefixes.length)
    (hclosing : t.stage w = .closing → (t.channels.chan w).closed = false)
    (hfirst : w ∈ t.closedFirst → (t.channels.chan w).closed = true) :
  Fits t w
  := by
  constructor
  · intro h
    apply absurd h hstorage
  · intro h
    apply absurd h hfsm
  · intro _
    apply hbegun
  · intro h
    apply absurd h hfsm
  · intro h
    apply absurd h hstage
  · apply hclosing
  · intro h
    exact ⟨hfirst h, hbegun⟩

/-- A watch that is off both registries. -/
theorem Sound.not_lists (hs : Sound s) (h : s.stage w = .left ∨ s.stage w = .closing) :
  ¬ s.watchChans.Lists w ∧ ¬ s.fsm.Lists w
  := by
  constructor
  · intro hlists
    have hstage := (hs.watchers w).storage hlists
    rcases h with h | h <;> simp [h] at hstage
  · intro hlists
    have hstage := (hs.watchers w).fsm hlists
    rcases h with h | h <;> simp [h] at hstage

theorem Sound.removeWatcher (hs : Sound s) (hw : s.prefixes[w]? = some keyPrefix)
    (hstage : s.stage w = .leaving) (hfree : s.fsmFree = true) :
  Sound { s.setStage w .left with fsm := s.fsm.remove keyPrefix w }
  := by
  refine ⟨hs.storage, hs.fsm.remove keyPrefix w, ?_, ?_, ?_⟩
  · intro w'
    by_cases hne : w' = w
    · subst hne
      apply fits_of_unlisted
      · intro h
        have hstorage := (hs.watchers w').storage h
        simp [hstage] at hstorage
      · intro h
        apply absurd rfl ((hs.fsm.lists_remove hw w').mp h).2
      · intro h
        rw [stage_setStage_self] at h
        cases h
      · apply (List.getElem?_eq_some_iff.mp hw).1
      · intro h
        rw [stage_setStage_self] at h
        cases h
      · intro h
        apply ((hs.watchers w').closedFirst h).1
    · refine (hs.watchers w').of_same (fun h => h) ?_ (stage_setStage_of_ne hne _) rfl Iff.rfl
        le_rfl (fun _ h => h)
      intro h
      apply ((hs.fsm.lists_remove hw w').mp h).1
  · refine Phase.Fits.of_same hs.phase (fun _ _ h => h) ?_ (fun _ _ h => h)
    intro hlocks
    cases (locksFsm_of_free hfree).symm.trans hlocks
  · intro id e targets h
    apply absurd h (not_sending_of_free hfree)

theorem Sound.poll (hs : Sound s) (hstage : s.stage w = .left) :
  Sound { s.setStage w (if (s.channels.poll w).1 then .closing else .over) with
          channels := (s.channels.poll w).2 }
  := by
  obtain ⟨hstorage, hfsm⟩ := hs.not_lists (.inl hstage)
  have hbegun := (hs.watchers w).begun (by rw [hstage]; exact Stage.noConfusion)
  have hclosed : ∀ w', ((s.channels.poll w).2.chan w').closed = (s.channels.chan w').closed :=
    Channels.closed_tryReceive w
  refine ⟨hs.storage, hs.fsm, ?_, ?_, hs.targets⟩
  · intro w'
    by_cases hne : w' = w
    · subst hne
      refine fits_of_unlisted hstorage hfsm ?_ hbegun ?_ ?_
      · rw [stage_setStage_self]
        split_ifs
        · apply Stage.noConfusion
        · apply Stage.noConfusion
      · rw [stage_setStage_self]
        split_ifs with hpoll
        · intro _
          apply (hclosed w').trans (Channels.closed_of_poll hpoll)
        · rintro ⟨⟩
      · intro h
        apply (hclosed w').trans ((hs.watchers w').closedFirst h).1
    · exact (hs.watchers w').of_same (fun h => h) (fun h => h) (stage_setStage_of_ne hne _)
        (hclosed w') Iff.rfl le_rfl (fun _ h => h)
  · refine Phase.Fits.of_same hs.phase (fun _ _ h => h) (fun _ _ h => h) ?_
    intro w' _ hopen
    apply (hclosed w').trans hopen

theorem Sound.closeChan (hs : Sound s) (hstage : s.stage w = .closing) :
  Sound { s.setStage w .over with channels := s.channels.close w }
  := by
  obtain ⟨hstorage, hfsm⟩ := hs.not_lists (.inr hstage)
  have hbegun := (hs.watchers w).begun (by rw [hstage]; exact Stage.noConfusion)
  have hclosed : ∀ w', w' ≠ w →
      ((s.channels.close w).chan w').closed = (s.channels.chan w').closed :=
    fun _ => Channels.closed_close_of_ne
  refine ⟨hs.storage, hs.fsm, ?_, ?_, hs.targets⟩
  · intro w'
    by_cases hne : w' = w
    · subst hne
      refine fits_of_unlisted hstorage hfsm ?_ hbegun ?_ ?_
      · rw [stage_setStage_self]
        apply Stage.noConfusion
      · rw [stage_setStage_self]
        rintro ⟨⟩
      · intro _
        simp
    · exact (hs.watchers w').of_same (fun h => h) (fun h => h) (stage_setStage_of_ne hne _)
        (hclosed w' hne) Iff.rfl le_rfl (fun _ h => h)
  · -- What `Close` is about to close is listed, and so another channel.
    refine Phase.Fits.of_same hs.phase (fun _ _ h => h) (fun _ _ h => h) ?_
    intro w' hlists hopen
    apply (hclosed w' _).trans hopen
    rintro rfl
    apply hlists.elim hstorage hfsm

end

/-! ### The steps of `Close` -/

section

variable {s : State} {w : ℕ} {todo : List ℕ}

/-- `Close` polls a channel of the first registry. -/
theorem Sound.closePoll_storage (hs : Sound s) (hphase : s.phase = .storage (w :: todo)) :
  Sound { s with
          channels := (s.channels.poll w).2
          phase := if (s.channels.poll w).1 then .storageClose w todo else .storage todo }
  := by
  have htodo : ∀ w' ∈ w :: todo, s.watchChans.Lists w' := hs.fits hphase
  have hclosed : ∀ w', ((s.channels.poll w).2.chan w').closed = (s.channels.chan w').closed :=
    Channels.closed_tryReceive w
  refine ⟨hs.storage, hs.fsm, ?_, ?_, ?_⟩
  · intro w'
    refine (hs.watchers w').of_same (fun h => h) (fun h => h) rfl (hclosed w') Iff.rfl le_rfl ?_
    rw [hphase]
    rintro - ⟨⟩
  · dsimp only
    split_ifs with hpoll
    · exact ⟨htodo, (hclosed w).trans (Channels.closed_of_poll hpoll)⟩
    · apply (List.forall_mem_cons.mp htodo).2
  · intro id e targets h
    refine ⟨?_, (hs.targets id e targets h).2⟩
    dsimp only
    split_ifs
    · rfl
    · rfl

/-- `Close` polls a channel of the second registry. -/
theorem Sound.closePoll_fsm (hs : Sound s) (hphase : s.phase = .fsm (w :: todo)) :
  Sound { s with
          channels := (s.channels.poll w).2
          phase := if (s.channels.poll w).1 then .fsmClose w todo else .fsm todo }
  := by
  have htodo : ∀ w' ∈ w :: todo, s.fsm.Lists w' := hs.fits hphase
  have hclosed : ∀ w', ((s.channels.poll w).2.chan w').closed = (s.channels.chan w').closed :=
    Channels.closed_tryReceive w
  refine ⟨hs.storage, hs.fsm, ?_, ?_, ?_⟩
  · intro w'
    refine (hs.watchers w').of_same (fun h => h) (fun h => h) rfl (hclosed w') Iff.rfl le_rfl ?_
    intro _ _
    dsimp only
    split_ifs
    · rfl
    · rfl
  · dsimp only
    split_ifs with hpoll
    · exact ⟨htodo, (hclosed w).trans (Channels.closed_of_poll hpoll)⟩
    · apply (List.forall_mem_cons.mp htodo).2
  · intro id e targets h
    apply absurd h (hs.not_sending _)
    rw [hphase]
    rfl

/-- `Close` closes a channel of the first registry. -/
theorem Sound.closeNext_storage (hs : Sound s) (hphase : s.phase = .storageClose w todo) :
  Sound { s with
          channels := s.channels.close w
          phase := .storage todo
          closedFirst := insert w s.closedFirst }
  := by
  have htodo : ∀ w' ∈ w :: todo, s.watchChans.Lists w' := (hs.fits hphase).1
  have hstage := (hs.watchers w).storage (htodo w List.mem_cons_self)
  refine ⟨hs.storage, hs.fsm, ?_, (List.forall_mem_cons.mp htodo).2, ?_⟩
  · intro w'
    by_cases hne : w' = w
    · subst hne
      have hbegun : w' < s.prefixes.length := by
        apply (hs.watchers w').begun
        rcases hstage with h | h <;> simp [h]
      constructor
      · apply (hs.watchers w').storage
      · apply (hs.watchers w').fsm
      · apply (hs.watchers w').begun
      · intro _ _
        left
        apply Finset.mem_insert_self
      · intro _ _
        apply Finset.mem_insert_self
      · intro h
        dsimp only at h
        simp [h] at hstage
      · intro _
        refine ⟨?_, hbegun⟩
        simp
    · refine (hs.watchers w').of_same (fun h => h) (fun h => h) rfl ?_ ?_ le_rfl ?_
      · apply Channels.closed_close_of_ne hne
      · rw [Finset.mem_insert, or_iff_right hne]
      · rw [hphase]
        rintro - ⟨⟩
  · intro id e targets h
    exact ⟨rfl, (hs.targets id e targets h).2⟩

/-- `Close` closes a channel of the second registry. -/
theorem Sound.closeNext_fsm (hs : Sound s) (hphase : s.phase = .fsmClose w todo) :
  Sound { s with channels := s.channels.close w, phase := .fsm todo }
  := by
  have htodo : ∀ w' ∈ w :: todo, s.fsm.Lists w' := (hs.fits hphase).1
  have hstage := (hs.watchers w).fsm (htodo w List.mem_cons_self)
  refine ⟨hs.storage, hs.fsm, ?_, (List.forall_mem_cons.mp htodo).2, ?_⟩
  · intro w'
    by_cases hne : w' = w
    · subst hne
      constructor
      · apply (hs.watchers w').storage
      · apply (hs.watchers w').fsm
      · apply (hs.watchers w').begun
      · intro _ _
        right
        rfl
      · intro h
        dsimp only at h
        simp [h] at hstage
      · intro h
        dsimp only at h
        simp [h] at hstage
      · intro h
        refine ⟨?_, ((hs.watchers w').closedFirst h).2⟩
        simp
    · refine (hs.watchers w').of_same (fun h => h) (fun h => h) rfl ?_ Iff.rfl le_rfl
        (fun _ _ => rfl)
      apply Channels.closed_close_of_ne hne
  · intro id e targets h
    apply absurd h (hs.not_sending _)
    rw [hphase]
    rfl

/-- `Close` goes on to the second registry. -/
theorem Sound.closeFsm (hs : Sound s) (hfree : s.fsmFree = true) (order : List GoString) :
  Sound { s with watchChans := ∅, phase := .fsm (s.fsm.channels order) }
  := by
  refine ⟨Registry.proper_empty, hs.fsm, ?_, fun w hw => Registry.mem_channels hw, ?_⟩
  · intro w
    refine (hs.watchers w).of_same ?_ (fun h => h) rfl rfl Iff.rfl le_rfl (fun _ _ => rfl)
    intro h
    apply absurd h (Registry.not_lists_empty w)
  · intro id e targets h
    apply absurd h (not_sending_of_free hfree)

/-- `Close` is done with the second registry. -/
theorem Sound.closed (hs : Sound s) (hphase : s.phase = .fsm []) :
  Sound { s with fsm := ∅, phase := .done }
  := by
  refine ⟨hs.storage, Registry.proper_empty, ?_, trivial, ?_⟩
  · intro w
    refine (hs.watchers w).of_same (fun h => h) ?_ rfl rfl Iff.rfl le_rfl ?_
    · intro h
      apply absurd h (Registry.not_lists_empty w)
    · intro h
      apply absurd h (Registry.not_lists_empty w)
  · intro id e targets h
    apply absurd h (hs.not_sending _)
    rw [hphase]
    rfl

/-- A step of `Close` that has to do with no channel. -/
theorem Sound.setPhase (hs : Sound s) {phase : Phase} (h : phase.Fits s)
    (hunlocked : s.phase.locksFsm = false) (hlocks : phase.locksFsm = false) :
  Sound { s with phase := phase }
  := by
  refine ⟨hs.storage, hs.fsm, ?_, ?_, ?_⟩
  · intro w
    refine (hs.watchers w).of_same (fun h => h) (fun h => h) rfl rfl Iff.rfl le_rfl ?_
    intro _ h
    cases hunlocked.symm.trans h
  · apply Phase.Fits.of_same h (fun _ _ h => h) (fun _ _ h => h) (fun _ _ h => h)
  · intro id e targets h
    exact ⟨hlocks, (hs.targets id e targets h).2⟩

end

/-! ### What a step does -/

section

variable {s t : State}

theorem mem_closedFirst_iff (hs : Sound s) {id : ℕ} {e : StateEvent} {w : ℕ} {targets : List ℕ}
    (h : s.notices.lookup id = some (.sending e targets)) (hw : w ∈ targets) :
  w ∈ s.closedFirst ↔ (s.channels.chan w).closed = true
  := by
  obtain ⟨hunlocked, htargets⟩ := hs.targets id e targets h
  constructor
  · intro hfirst
    apply ((hs.watchers w).closedFirst hfirst).1
  · intro hclosed
    apply ((hs.watchers w).sent (htargets w hw) hclosed).resolve_right
    rw [hunlocked]
    apply Bool.noConfusion

theorem Sound.setNotices (hs : Sound s) {notices : GoMap ℕ Notice}
    (h : ∀ id e targets, notices.lookup id = some (.sending e targets) →
      s.phase.locksFsm = false ∧ ∀ w ∈ targets, s.fsm.Lists w) :
  Sound { s with notices := notices }
  := hs.of_same rfl rfl rfl rfl (fun _ => rfl) rfl rfl h

/-- What a step does: it keeps what holds of every state, and it is no misuse exactly if it sends
nothing to a channel that `Close` has closed through the first registry. -/
structure Keeps (s : State) (a : Action) (t : State) : Prop where
  sound : Sound t
  proper_iff : Proper t ↔ NotClosedFirst s a

end

section

variable {s t : State} (hs : Sound s) (hproper : Proper s)

include hs hproper

/-! The steps of a watch. -/

theorem keeps_check {keyPrefix : GoString} (h : step s (.check keyPrefix) = some t) :
  Keeps s (.check keyPrefix) t
  := by
  rw [step] at h
  split at h
  · obtain rfl := Option.some.inj h
    use hs.of_same rfl rfl rfl rfl (fun _ => rfl) rfl rfl hs.targets
    apply iff_of_true hproper trivial
  · split_ifs at h
    obtain rfl := Option.some.inj h
    use hs
    apply iff_of_true hproper trivial

theorem keeps_watch {keyPrefix : GoString} (h : step s (.watch keyPrefix) = some t) :
  Keeps s (.watch keyPrefix) t
  := by
  obtain ⟨⟨hfree, -⟩, ⟨⟩⟩ := Option.ite_none_right_eq_some.mp h
  use hs.watch hfree keyPrefix
  apply iff_of_true hproper trivial

theorem keeps_addWatcher {w : ℕ} (h : step s (.addWatcher w) = some t) :
  Keeps s (.addWatcher w) t
  := by
  rw [step] at h
  split at h
  · rename_i keyPrefix hw
    obtain ⟨⟨hstage, hfree⟩, ⟨⟩⟩ := Option.ite_none_right_eq_some.mp h
    use hs.addWatcher hw hstage hfree
    apply iff_of_true hproper trivial
  · cases h

theorem keeps_cancel {w : ℕ} (h : step s (.cancel w) = some t) :
  Keeps s (.cancel w) t
  := by
  rw [step] at h
  split at h
  · rename_i keyPrefix hw
    obtain ⟨⟨hstage, hfree⟩, ⟨⟩⟩ := Option.ite_none_right_eq_some.mp h
    use hs.cancel hw hstage hfree
    apply iff_of_true hproper trivial
  · cases h

theorem keeps_removeWatcher {w : ℕ} (h : step s (.removeWatcher w) = some t) :
  Keeps s (.removeWatcher w) t
  := by
  rw [step] at h
  split at h
  · rename_i keyPrefix hw
    obtain ⟨⟨hstage, hfree⟩, ⟨⟩⟩ := Option.ite_none_right_eq_some.mp h
    use hs.removeWatcher hw hstage hfree
    apply iff_of_true hproper trivial
  · cases h

theorem keeps_poll {w : ℕ} (h : step s (.poll w) = some t) :
  Keeps s (.poll w) t
  := by
  obtain ⟨hstage, ⟨⟩⟩ := Option.ite_none_right_eq_some.mp h
  use hs.poll hstage
  apply iff_of_true _ trivial
  apply (Channels.misuses_tryReceive w).trans hproper

theorem keeps_closeChan {w : ℕ} (h : step s (.closeChan w) = some t) :
  Keeps s (.closeChan w) t
  := by
  obtain ⟨hstage, ⟨⟩⟩ := Option.ite_none_right_eq_some.mp h
  use hs.closeChan hstage
  apply iff_of_true _ trivial
  apply (Channels.misuses_close ((hs.watchers w).closing hstage)).trans hproper

theorem keeps_receive {w : ℕ} (h : step s (.receive w) = some t) :
  Keeps s (.receive w) t
  := by
  obtain rfl := Option.some.inj h
  use hs.of_same rfl rfl rfl rfl (Channels.closed_tryReceive w) rfl rfl hs.targets
  apply iff_of_true _ trivial
  apply (Channels.misuses_tryReceive w).trans hproper

/-! The steps of a write and its notification. -/

theorem keeps_apply {id : ℕ} {e : StateEvent} (h : step s (.apply id e) = some t) :
  Keeps s (.apply id e) t
  := by
  obtain ⟨⟨hfree, -⟩, ⟨⟩⟩ := Option.ite_none_right_eq_some.mp h
  constructor
  · apply hs.setNotices
    intro id' e' targets hlookup
    obtain ⟨-, ⟨⟩⟩ | ⟨-, hold⟩ := GoMap.lookup_insert_eq_some.mp hlookup
    apply hs.targets id' e' targets hold
  · apply iff_of_true hproper trivial

theorem keeps_start {id : ℕ} {order : List GoString} (h : step s (.start id order) = some t) :
  Keeps s (.start id order) t
  := by
  rw [step] at h
  split at h
  · obtain ⟨⟨hunlocked, -⟩, ⟨⟩⟩ := Option.ite_none_right_eq_some.mp h
    constructor
    · apply hs.setNotices
      intro id' e' targets hlookup
      obtain ⟨-, ⟨⟩⟩ | ⟨-, hold⟩ := GoMap.lookup_insert_eq_some.mp hlookup
      · use hunlocked
        intro w hw
        apply Registry.mem_channels hw
      · apply hs.targets id' e' targets hold
    · apply iff_of_true hproper trivial
  · cases h

/-- The one step that may be a misuse. -/
theorem keeps_send {id : ℕ} (h : step s (.send id) = some t) :
  Keeps s (.send id) t
  := by
  rw [step] at h
  split at h
  · rename_i e w targets hlookup
    obtain rfl := Option.some.inj h
    constructor
    · refine hs.of_same rfl rfl rfl rfl (Channels.closed_trySend w e) rfl rfl ?_
      intro id' e' targets' hlookup'
      obtain ⟨-, ⟨⟩⟩ | ⟨-, hold⟩ := GoMap.lookup_insert_eq_some.mp hlookup'
      · obtain ⟨hunlocked, htargets⟩ := hs.targets id e _ hlookup
        use hunlocked, (List.forall_mem_cons.mp htargets).2
      · apply hs.targets id' e' targets' hold
    · have hfirst := mem_closedFirst_iff hs hlookup List.mem_cons_self
      have htarget : NotClosedFirst s (.send id) ↔ w ∉ s.closedFirst := by
        simp [NotClosedFirst, State.target, hlookup]
      rw [htarget, hfirst, Bool.not_eq_true]
      apply Channels.misuses_trySend_eq_nil_iff hproper
  · cases h

theorem keeps_finish {id : ℕ} (h : step s (.finish id) = some t) :
  Keeps s (.finish id) t
  := by
  rw [step] at h
  split at h
  · obtain rfl := Option.some.inj h
    constructor
    · apply hs.setNotices
      intro id' e' targets hlookup
      apply hs.targets id' e' targets (GoMap.lookup_erase_eq_some.mp hlookup).2
    · apply iff_of_true hproper trivial
  · cases h

/-! The steps of `Close`. -/

theorem keeps_close (h : step s .close = some t) :
  Keeps s .close t
  := by
  rw [step] at h
  split at h
  · rename_i hphase
    obtain rfl := Option.some.inj h
    use hs.setPhase trivial (by rw [hphase]; rfl) rfl
    apply iff_of_true hproper trivial
  · split_ifs at h
    obtain rfl := Option.some.inj h
    use hs
    apply iff_of_true hproper trivial

theorem keeps_closeAll {order : List GoString} (h : step s (.closeAll order) = some t) :
  Keeps s (.closeAll order) t
  := by
  rw [step] at h
  split at h
  · rename_i hphase
    obtain ⟨-, ⟨⟩⟩ := Option.ite_none_right_eq_some.mp h
    use hs.setPhase (fun w hw => Registry.mem_channels hw) (by rw [hphase]; rfl) rfl
    apply iff_of_true hproper trivial
  · cases h

theorem keeps_closePoll (h : step s .closePoll = some t) :
  Keeps s .closePoll t
  := by
  rw [step] at h
  split at h
  · rename_i w todo hphase
    obtain rfl := Option.some.inj h
    use hs.closePoll_storage hphase
    apply iff_of_true _ trivial
    apply (Channels.misuses_tryReceive w).trans hproper
  · rename_i w todo hphase
    obtain rfl := Option.some.inj h
    use hs.closePoll_fsm hphase
    apply iff_of_true _ trivial
    apply (Channels.misuses_tryReceive w).trans hproper
  · cases h

theorem keeps_closeNext (h : step s .closeNext = some t) :
  Keeps s .closeNext t
  := by
  rw [step] at h
  split at h
  · rename_i w todo hphase
    obtain rfl := Option.some.inj h
    use hs.closeNext_storage hphase
    apply iff_of_true _ trivial
    apply (Channels.misuses_close (hs.fits hphase).2).trans hproper
  · rename_i w todo hphase
    obtain rfl := Option.some.inj h
    use hs.closeNext_fsm hphase
    apply iff_of_true _ trivial
    apply (Channels.misuses_close (hs.fits hphase).2).trans hproper
  · cases h

theorem keeps_closeFsm {order : List GoString} (h : step s (.closeFsm order) = some t) :
  Keeps s (.closeFsm order) t
  := by
  rw [step] at h
  split at h
  · obtain ⟨⟨hfree, -⟩, ⟨⟩⟩ := Option.ite_none_right_eq_some.mp h
    use hs.closeFsm hfree order
    apply iff_of_true hproper trivial
  · cases h

theorem keeps_closed (h : step s .closed = some t) :
  Keeps s .closed t
  := by
  rw [step] at h
  split at h
  · rename_i hphase
    obtain rfl := Option.some.inj h
    use hs.closed hphase
    apply iff_of_true hproper trivial
  · cases h

theorem step_spec {a : Action} (h : machine.step s a = some t) :
  Keeps s a t
  := by
  cases a with
  | check keyPrefix => apply keeps_check hs hproper h
  | watch keyPrefix => apply keeps_watch hs hproper h
  | addWatcher w => apply keeps_addWatcher hs hproper h
  | cancel w => apply keeps_cancel hs hproper h
  | removeWatcher w => apply keeps_removeWatcher hs hproper h
  | poll w => apply keeps_poll hs hproper h
  | closeChan w => apply keeps_closeChan hs hproper h
  | apply id e => apply keeps_apply hs hproper h
  | start id order => apply keeps_start hs hproper h
  | send id => apply keeps_send hs hproper h
  | finish id => apply keeps_finish hs hproper h
  | receive w => apply keeps_receive hs hproper h
  | close => apply keeps_close hs hproper h
  | closeAll order => apply keeps_closeAll hs hproper h
  | closePoll => apply keeps_closePoll hs hproper h
  | closeNext => apply keeps_closeNext hs hproper h
  | closeFsm order => apply keeps_closeFsm hs hproper h
  | closed => apply keeps_closed hs hproper h

end

/-- The channels are used properly along a run exactly if nothing is sent to a channel that
`Close` has closed through the first registry. -/
theorem proper_iff (actions : List Action) :
  machine.Always Proper start actions ↔ machine.Meets NotClosedFirst start actions
  := by
  apply Machine.always_iff_meets_of_next (J := fun s => Sound s ∧ Proper s)
  · intro s a t hs ht hstep
    use (step_spec hs.1 hs.2 hstep).sound, ht
  · intro s a t hs _ hstep
    apply (step_spec hs.1 hs.2 hstep).proper_iff
  · use sound_start
    rfl
  · rfl

end RaftClosing

/-! ### Both storages -/

/-- However watches, cancellations, notifications and `Close` follow each other, the channels of a
storage are used properly exactly if, for the local storage, no watch is cancelled that is not
registered any more while its prefix is watched again, and for the Raft storage, no event is sent
to a channel that `Close` has closed through the first registry. -/
theorem proper_use_iff (localActions : List LocalClosing.Action)
    (raftActions : List RaftClosing.Action) :
  (LocalClosing.machine.Always LocalClosing.Proper LocalClosing.start localActions ↔
      LocalClosing.machine.Meets LocalClosing.StillRegistered LocalClosing.start localActions) ∧
    (RaftClosing.machine.Always RaftClosing.Proper RaftClosing.start raftActions ↔
      RaftClosing.machine.Meets RaftClosing.NotClosedFirst RaftClosing.start raftActions)
  := ⟨LocalClosing.proper_iff localActions, RaftClosing.proper_iff raftActions⟩

/-- A watch of the local storage is cancelled after `Close`, when its prefix is watched again: its
channel is closed twice.  An event of the Raft storage is sent after `Close` has closed the channel
through the first registry, and before it has come to the second. -/
theorem closed_twice_and_sent :
  (∃ s, LocalClosing.machine.run LocalClosing.start
      [.watch (str "k"), .close, .closeAll [str "k"], .watch (str "k"), .cancel 0] = some s ∧
    s.channels.misuses = [.closedTwice 0]) ∧
  ∃ s, RaftClosing.machine.run RaftClosing.start
      [.check (str "k"), .watch (str "k"), .addWatcher 0, .apply 0 ⟨.set, "k", [], 0, "n1"⟩,
        .close, .closeAll [str "k"], .closePoll, .closeNext, .start 0 [str "k"], .send 0] =
      some s ∧
    s.channels.misuses = [.sentOnClosed 0]
  := by
  constructor
  · exact ⟨_, rfl, by decide +kernel⟩
  · exact ⟨_, rfl, by decide +kernel⟩

end Storage

end VmProxyAuth
