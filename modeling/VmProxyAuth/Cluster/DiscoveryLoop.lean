import VmProxyAuth.Lib.Channels
import VmProxyAuth.Lib.Machine

/-!
# The discovery loop

`Start`, `Stop` and the discovery loops of a discovery service, in any interleaving of their steps.
A loop reads the stop channel of the service each time before it enters its `select`.  `Stop`
closes the channel and takes it away, and no `Start` makes another one.  So a loop that comes to
its `select` after `Stop`, or is started after it, waits on a channel that is never closed.  Loops
are stopped exactly if each `Stop` finds them waiting on the channel it closes
(`stops_iff_findsWaiting`).  The channel is closed once at most (`closed_once`).
-/

namespace VmProxyAuth

namespace Cluster

namespace DiscoveryLoop

/-! ### Steps -/

/-- Where a loop stands: at the top of the loop, on its way into the `select` with the channel it
has read, waiting in the `select`, in a discovery cycle, or at its end. -/
inductive LoopPc where
  | top
  | entering (stopCh : Option ℕ)
  | waiting (stopCh : Option ℕ)
  | cycle
  | ended
  deriving DecidableEq, Repr

/-- A loop: where it stands, whether its ticker holds a tick, whether `Stop` was called since it
was started, and whether it has started a cycle after that. -/
structure Loop where
  pc : LoopPc
  tick : Bool
  signalled : Bool
  late : Bool
  deriving DecidableEq, Repr

/-- The loop starts a cycle. -/
def Loop.runDiscovery (l : Loop) : Loop :=
  { l with pc := .cycle, late := l.late || l.signalled }

/-- Who holds the lock of the service: nobody, a `Start` in its first discovery, or a `Stop` that
stops the providers. -/
inductive Lock where
  | free
  | starting
  | stopping
  deriving DecidableEq, Repr

/-- The service: whether it is running, its stop channel, the channels, the lock and the loops that
were started. -/
structure State where
  running : Bool
  stopCh : Option ℕ
  channels : Channels Unit
  lock : Lock
  loops : List Loop

/-- `NewService`. -/
def start : State := ⟨false, some 0, ⟨fun _ => Chan.make 0, []⟩, .free, []⟩

/-- The ticker ticks; the loop reads the stop channel, and its `select` takes the tick, finds the
channel closed, or waits; or a cycle is finished. -/
inductive LoopMove where
  | tick
  | read
  | take
  | leave
  | wait
  | finish

/-- The calls of `Start` and `Stop` up to their first wait, `Start` of a service that is enabled
and has providers or of one that is not; the ends of the two; and the steps of the loops. -/
inductive Action where
  | start (hasProviders : Bool)
  | started
  | stop
  | stopped
  | loop (i : ℕ) (move : LoopMove)

namespace State

variable (s : State)

def setLoop (i : ℕ) (l : Loop) : State := { s with loops := s.loops.set i l }

/-- Whether receiving from a channel, which may be none, blocks. -/
def blocks : Option ℕ → Bool
  | none => true
  | some c => !(s.channels.chan c).closed

/-- A step of `discoveryLoop`. -/
def discoveryLoop (l : Loop) (move : LoopMove) : Option Loop :=
  match l.pc, move with
  | .top, .tick => some { l with tick := true }
  | .top, .read => if s.lock = .free then some { l with pc := .entering s.stopCh } else none
  | .entering _, .tick => some { l with tick := true }
  -- Of the cases that are ready, `select` takes any.
  | .entering _, .take => if l.tick then some { l with tick := false }.runDiscovery else none
  | .entering stopCh, .leave => if s.blocks stopCh then none else some { l with pc := .ended }
  | .entering stopCh, .wait =>
    if l.tick = false ∧ s.blocks stopCh = true then some { l with pc := .waiting stopCh } else none
  | .waiting _, .tick => some l.runDiscovery
  | .cycle, .tick => some { l with tick := true }
  | .cycle, .finish => some { l with pc := .top }
  | _, _ => none

/-- A loop when the stop channel is closed: it leaves if it waits on it. -/
def signal (l : Loop) : Loop :=
  { l with
    pc := if s.stopCh ≠ none ∧ l.pc = .waiting s.stopCh then .ended else l.pc
    signalled := true }

/-- `Stop` of a service that is running, up to its stopping of the providers. -/
def stop : State where
  running := false
  stopCh := none
  channels := match s.stopCh with
    | some c => s.channels.close c
    | none => s.channels
  lock := .stopping
  loops := s.loops.map s.signal

end State

/-- One step of the service. -/
def step (s : State) : Action → Option State
  | .start hasProviders =>
    if s.lock = .free then
      -- An error is returned if the service is running.
      if s.running then some s
      else if hasProviders then some { s with running := true, lock := .starting }
      else some s
    else none
  | .started =>
    if s.lock = .starting then
      some { s with lock := .free, loops := s.loops ++ [⟨.top, false, false, false⟩] }
    else none
  | .stop =>
    if s.lock = .free then
      if s.running then some s.stop else some s
    else none
  | .stopped => if s.lock = .stopping then some { s with lock := .free } else none
  | .loop i move => (s.loops[i]?).bind (fun l => (s.discoveryLoop l move).map (s.setLoop i))

/-- The runs of a discovery service. -/
def machine : Machine State Action := ⟨step⟩

/-! ### The property -/

/-- No loop has started a cycle after `Stop` was called, and no channel was closed twice. -/
structure Stopped (s : State) : Prop where
  late : ∀ l ∈ s.loops, l.late = false
  misuses : s.channels.misuses = []

/-- Whether an action is a call. -/
def Action.isCall : Action → Bool
  | .start _ => true
  | .started => false
  | .stop => true
  | .stopped => false
  | .loop _ _ => false

/-- The property holds, and goes on holding however the loops and calls under way go on. -/
def Safe : State → Prop := machine.Persists (fun a => a.isCall = false) Stopped

/-- A `Stop` that finds the service running finds its loops waiting on the stop channel. -/
def FindsWaiting (s : State) : Action → Prop
  | .stop => s.running = true → ∀ l ∈ s.loops, l.pc ≠ .ended →
      s.stopCh ≠ none ∧ l.pc = .waiting s.stopCh
  | _ => True

instance decidableFindsWaiting (s : State) : ∀ a, Decidable (FindsWaiting s a)
  | .stop => inferInstanceAs (Decidable (_ → ∀ l ∈ s.loops, _))
  | .start _ => isTrue trivial
  | .started => isTrue trivial
  | .stopped => isTrue trivial
  | .loop _ _ => isTrue trivial

section

variable {s t : State} {i : ℕ} {l : Loop}

/-! ### A loop that is not stopped -/

theorem getElem?_setLoop (hl : s.loops[i]? = some l) (l' : Loop) :
  (s.setLoop i l').loops[i]? = some l'
  := List.getElem?_set_self (List.getElem?_eq_some_iff.mp hl).1

theorem step_loop (hl : s.loops[i]? = some l) {move : LoopMove} {l' : Loop}
    (hmove : s.discoveryLoop l move = some l') :
  machine.step s (.loop i move) = some (s.setLoop i l')
  := by
  change (s.loops[i]?).bind (fun l => (s.discoveryLoop l move).map (s.setLoop i)) = _
  rw [hl, Option.bind_some, hmove, Option.map_some]

/-- A loop moves on. -/
theorem Safe.move (h : Safe s) (hl : s.loops[i]? = some l) {move : LoopMove} {l' : Loop}
    (hmove : s.discoveryLoop l move = some l') :
  Safe (s.setLoop i l') ∧ (s.setLoop i l').loops[i]? = some l'
  := ⟨h.step rfl (step_loop hl hmove), getElem?_setLoop hl l'⟩

/-- A loop that starts a cycle was not signalled. -/
theorem Safe.not_signalled (h : Safe s) (hl : s.loops[i]? = some l) {move : LoopMove} {l' : Loop}
    (hmove : s.discoveryLoop l move = some l'.runDiscovery) :
  l'.signalled = false
  := by
  obtain ⟨hsafe, hl'⟩ := h.move hl hmove
  have hlate := hsafe.holds.late l'.runDiscovery (List.mem_of_getElem? hl')
  apply (Bool.or_eq_false_iff.mp hlate).2

theorem Safe.not_signalled_of_waiting (h : Safe s) (hl : s.loops[i]? = some l) {c : Option ℕ}
    (hpc : l.pc = .waiting c) :
  l.signalled = false
  := by
  have htick : s.discoveryLoop l .tick = some l.runDiscovery := by
    simp [State.discoveryLoop, hpc]
  apply h.not_signalled hl htick

/-- On the way into its `select`, a loop may find a tick. -/
theorem Safe.not_signalled_of_entering (h : Safe s) (hl : s.loops[i]? = some l) {c : Option ℕ}
    (hpc : l.pc = .entering c) :
  l.signalled = false
  := by
  have htick : s.discoveryLoop l .tick = some { l with tick := true } := by
    simp [State.discoveryLoop, hpc]
  obtain ⟨hsafe, hl'⟩ := h.move hl htick
  have htake : State.discoveryLoop (s.setLoop i { l with tick := true }) { l with tick := true }
      .take = some { l with tick := false }.runDiscovery := by
    simp [State.discoveryLoop, hpc]
  apply hsafe.not_signalled hl' htake

/-- At the top of the loop, a loop comes to its `select` once the lock is free. -/
theorem Safe.not_signalled_of_top (h : Safe s) (hlock : s.lock = .stopping)
    (hl : s.loops[i]? = some l) (hpc : l.pc = .top) :
  l.signalled = false
  := by
  have hstopped : machine.step s .stopped = some { s with lock := .free } := if_pos hlock
  have hfree : Safe { s with lock := .free } := h.step rfl hstopped
  have hread : State.discoveryLoop { s with lock := .free } l .read
      = some { l with pc := .entering s.stopCh } := by
    simp [State.discoveryLoop, hpc]
  obtain ⟨hsafe, hl'⟩ := hfree.move hl hread
  apply hsafe.not_signalled_of_entering hl' rfl

theorem Safe.not_signalled_of_cycle (h : Safe s) (hlock : s.lock = .stopping)
    (hl : s.loops[i]? = some l) (hpc : l.pc = .cycle) :
  l.signalled = false
  := by
  have hfinish : s.discoveryLoop l .finish = some { l with pc := .top } := by
    simp [State.discoveryLoop, hpc]
  obtain ⟨hsafe, hl'⟩ := h.move hl hfinish
  apply hsafe.not_signalled_of_top hlock hl' rfl

/-- A loop that was signalled and has not ended starts another cycle in some continuation. -/
theorem Safe.ended (h : Safe s) (hlock : s.lock = .stopping) (hl : s.loops[i]? = some l)
    (hsignalled : l.signalled = true) :
  l.pc = .ended
  := by
  cases hpc : l.pc with
  | top => simp [h.not_signalled_of_top hlock hl hpc] at hsignalled
  | entering c => simp [h.not_signalled_of_entering hl hpc] at hsignalled
  | waiting c => simp [h.not_signalled_of_waiting hl hpc] at hsignalled
  | cycle => simp [h.not_signalled_of_cycle hlock hl hpc] at hsignalled
  | ended => rfl

/-! ### The stop channel -/

/-- What a step does: a call that returns at once, the two parts of a `Start`, the two parts of a
`Stop`, and a step of a loop. -/
theorem step_cases {a : Action} (h : machine.step s a = some t) :
  t = s ∨ t = { s with running := true, lock := .starting } ∨
    t = { s with lock := .free, loops := s.loops ++ [⟨.top, false, false, false⟩] } ∨
    (a = .stop ∧ s.running = true ∧ t = s.stop) ∨ t = { s with lock := .free } ∨
    ∃ i move l l', a = .loop i move ∧ s.loops[i]? = some l ∧
      s.discoveryLoop l move = some l' ∧ t = s.setLoop i l'
  := by
  cases a with
  | start hasProviders =>
    obtain ⟨-, ht⟩ := Option.ite_none_right_eq_some.mp h
    split_ifs at ht <;> simp [← Option.some.inj ht]
  | started =>
    obtain ⟨-, ht⟩ := Option.ite_none_right_eq_some.mp h
    simp [← Option.some.inj ht]
  | stop =>
    obtain ⟨-, ht⟩ := Option.ite_none_right_eq_some.mp h
    split_ifs at ht with hrunning <;> simp [← Option.some.inj ht, hrunning]
  | stopped =>
    obtain ⟨-, ht⟩ := Option.ite_none_right_eq_some.mp h
    simp [← Option.some.inj ht]
  | loop i move =>
    obtain ⟨l, hl, hmove⟩ := Option.bind_eq_some_iff.mp h
    obtain ⟨l', hl', rfl⟩ := Option.map_eq_some_iff.mp hmove
    iterate 5 right
    exact ⟨i, move, l, l', rfl, hl, hl', rfl⟩

/-- The stop channel of the service, if there is one, is open. -/
structure Closable (s : State) : Prop where
  misuses : s.channels.misuses = []
  opened : ∀ c, s.stopCh = some c → (s.channels.chan c).closed = false

theorem closable_start :
  Closable start
  := ⟨rfl, fun _ _ => rfl⟩

theorem Closable.stop (h : Closable s) :
  Closable s.stop
  := by
  constructor
  · cases hstop : s.stopCh with
    | none => simp [State.stop, hstop, h.misuses]
    | some c => simp [State.stop, hstop, Channels.misuses_close (h.opened c hstop), h.misuses]
  · intro c hc
    cases hc

theorem Closable.step {a : Action} (h : Closable s) (ht : machine.step s a = some t) :
  Closable t
  := by
  obtain rfl | rfl | rfl | ⟨-, -, rfl⟩ | rfl | ⟨i, move, l, l', -, -, -, rfl⟩ := step_cases ht
  · apply h
  · exact ⟨h.misuses, h.opened⟩
  · exact ⟨h.misuses, h.opened⟩
  · apply h.stop
  · exact ⟨h.misuses, h.opened⟩
  · exact ⟨h.misuses, h.opened⟩

/-! ### Loops that are stopped -/

/-- The stop channel is open, and every loop that was signalled has ended. -/
structure Orderly (s : State) : Prop extends Closable s where
  ended : ∀ l ∈ s.loops, l.signalled = true → l.pc = .ended
  late : ∀ l ∈ s.loops, l.late = false

theorem orderly_start :
  Orderly start
  := ⟨closable_start, List.forall_mem_nil _, List.forall_mem_nil _⟩

/-- A loop that has ended makes no more steps, and a step starts a cycle or leaves the records as
they are. -/
theorem discoveryLoop_spec {move : LoopMove} {l' : Loop} (h : s.discoveryLoop l move = some l') :
  l.pc ≠ .ended ∧ l'.signalled = l.signalled ∧
    (l'.late = l.late ∨ l'.late = (l.late || l.signalled))
  := by
  rw [State.discoveryLoop.eq_def] at h
  split at h
  all_goals try split at h
  all_goals first
    | (obtain rfl := Option.some.inj h
       simp_all [Loop.runDiscovery])
    | cases h

/-- The loops that were not signalled go on. -/
theorem Orderly.loop (h : Orderly s) (hl : s.loops[i]? = some l) {move : LoopMove} {l' : Loop}
    (hmove : s.discoveryLoop l move = some l') :
  Orderly (s.setLoop i l')
  := by
  have hmem : l ∈ s.loops := List.mem_of_getElem? hl
  obtain ⟨hpc, hsignalled, hlate⟩ := discoveryLoop_spec hmove
  have hnot : l.signalled = false := by
    cases hl' : l.signalled with
    | false => rfl
    | true => exact absurd (h.ended l hmem hl') hpc
  refine ⟨⟨h.misuses, h.opened⟩, ?_, ?_⟩
  · intro k hk hk'
    obtain hold | rfl := List.mem_or_eq_of_mem_set hk
    · apply h.ended k hold hk'
    · rw [hsignalled, hnot] at hk'
      cases hk'
  · intro k hk
    obtain hold | rfl := List.mem_or_eq_of_mem_set hk
    · apply h.late k hold
    · simpa [hnot, h.late l hmem] using hlate

/-- A `Stop` that finds the loops waiting on its channel ends them. -/
theorem Orderly.stop (h : Orderly s)
    (hwaiting : ∀ l ∈ s.loops, l.pc ≠ .ended → s.stopCh ≠ none ∧ l.pc = .waiting s.stopCh) :
  Orderly s.stop
  := by
  refine ⟨h.toClosable.stop, ?_, ?_⟩
  · intro k hk _
    obtain ⟨l, hl, rfl⟩ := List.mem_map.mp hk
    by_cases hpc : l.pc = .ended
    · simp [State.signal, hpc]
    · exact if_pos (hwaiting l hl hpc)
  · intro k hk
    obtain ⟨l, hl, rfl⟩ := List.mem_map.mp hk
    apply h.late l hl

/-- A `Start` adds a loop that was not signalled. -/
theorem Orderly.started (h : Orderly s) :
  Orderly { s with lock := .free, loops := s.loops ++ [⟨.top, false, false, false⟩] }
  := by
  refine ⟨⟨h.misuses, h.opened⟩, ?_, ?_⟩
  · refine List.forall_mem_append.mpr ⟨h.ended, ?_⟩
    simp
  · refine List.forall_mem_append.mpr ⟨h.late, ?_⟩
    simp

/-- The steps that meet the condition keep loops stopped. -/
theorem Orderly.step {a : Action} (h : Orderly s) (ha : FindsWaiting s a)
    (ht : machine.step s a = some t) :
  Orderly t
  := by
  obtain rfl | rfl | rfl | ⟨rfl, hrunning, rfl⟩ | rfl | ⟨i, move, l, l', -, hl, hl', rfl⟩ :=
    step_cases ht
  · apply h
  · exact ⟨⟨h.misuses, h.opened⟩, h.ended, h.late⟩
  · apply h.started
  · apply h.stop (ha hrunning)
  · exact ⟨⟨h.misuses, h.opened⟩, h.ended, h.late⟩
  · apply h.loop hl hl'

/-- A `Stop` after which no loop starts another cycle has found the loops waiting. -/
theorem findsWaiting_of_safe {a : Action} (ht : machine.step s a = some t) (hsafe : Safe t) :
  FindsWaiting s a
  := by
  cases a with
  | stop =>
    intro hrunning l hl hpc
    obtain ⟨-, ht⟩ := Option.ite_none_right_eq_some.mp ht
    rw [if_pos hrunning] at ht
    obtain rfl := Option.some.inj ht
    obtain ⟨i, hi⟩ := List.mem_iff_getElem?.mp hl
    have hsignal : (s.stop).loops[i]? = some (s.signal l) := by
      rw [State.stop, List.getElem?_map, hi, Option.map_some]
    have hended := hsafe.ended rfl hsignal rfl
    by_contra hnot
    exact hpc ((if_neg hnot).symm.trans hended)
  | start hasProviders => trivial
  | started => trivial
  | stopped => trivial
  | loop i move => trivial

end

/-! ### Whole runs -/

/-- No channel is closed twice, in any run. -/
theorem closed_once (actions : List Action) :
  machine.Always (fun s => s.channels.misuses = []) start actions
  := by
  have hpersists : machine.Persists (fun _ => True) (fun s => s.channels.misuses = []) start := by
    apply Machine.persists_of_invariant (K := Closable)
    · intro s hs
      apply hs.misuses
    · intro s a t hs _ ht
      apply hs.step ht
    · apply closable_start
  apply hpersists actions (fun _ _ => trivial)

/-- No loop starts a cycle after a `Stop` was called, however the run goes on, and no channel is
closed twice, exactly if every `Stop` of a running service finds its loops waiting on the stop
channel: none in a cycle, on its way to the `select`, or started after an earlier `Stop`. -/
theorem stops_iff_findsWaiting (actions : List Action) :
  machine.Always Safe start actions ↔ machine.Meets FindsWaiting start actions
  := by
  apply Machine.always_persists_iff_meets (K := Orderly)
  · intro s hs
    exact ⟨hs.late, hs.misuses⟩
  · intro s a t hs ha ht
    apply hs.step ha ht
  · intro s a ha
    cases a with
    | stop => cases ha
    | start hasProviders => trivial
    | started => trivial
    | stopped => trivial
    | loop i move => trivial
  · intro s a t _ ht hsafe
    apply findsWaiting_of_safe ht hsafe
  · apply orderly_start

-- `Stop` is called while the loop waits for its second cycle.
example : machine.Meets FindsWaiting start
    [.start true, .started, .loop 0 .read, .loop 0 .wait, .loop 0 .tick, .loop 0 .finish,
      .loop 0 .read, .loop 0 .wait, .stop, .stopped] := by
  decide

/-- `Stop` is called during a cycle.  The loop then finds no stop channel, and starts another
cycle at the next tick. -/
theorem cycle_after_stop :
  ∃ s, machine.run start
      [.start true, .started, .loop 0 .read, .loop 0 .wait, .loop 0 .tick, .stop, .stopped,
        .loop 0 .finish, .loop 0 .read, .loop 0 .wait, .loop 0 .tick] = some s ∧
    s.running = false ∧ s.lock = .free ∧ s.loops = [⟨.cycle, false, true, true⟩] ∧ ¬ Stopped s
  := by
  refine ⟨_, rfl, rfl, rfl, rfl, ?_⟩
  intro h
  cases h.late _ List.mem_cons_self

end DiscoveryLoop

end Cluster

end VmProxyAuth
