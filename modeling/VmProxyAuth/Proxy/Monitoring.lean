import VmProxyAuth.Lib.Machine

/-!
# Monitoring

`StartMonitoring`, `Stop` and the monitoring loops of a health checker, in any interleaving of
their steps with each other and with the cancellation of contexts.  The flag `running` is
cleared by a loop that leaves, and the channels `stopCh` and `stoppedCh` are made once for the
life of the checker.  No channel is closed twice and no loop leaves too early, however the
steps under way go on, exactly if the checker is started only once, with a context that is
not done, and only one `Stop` finds it running.
-/

namespace VmProxyAuth

namespace Proxy

namespace Monitoring

/-! ### Steps -/

/-- Where a monitoring loop stands: it makes checks, waits in its `select`, has left the loop
and is about to clear `running`, is about to close `stoppedCh`, has ended, or has panicked. -/
inductive LoopPc where
  | checking
  | selecting
  | leaving
  | closing
  | ended
  | panicked
  deriving DecidableEq, Repr

/-- The loop holds `running`. -/
def LoopPc.active : LoopPc → Bool
  | .checking => true
  | .selecting => true
  | .leaving => true
  | .closing => false
  | .ended => false
  | .panicked => false

/-- The loop has left its `select` for good. -/
def LoopPc.left : LoopPc → Bool
  | .checking => false
  | .selecting => false
  | .leaving => true
  | .closing => true
  | .ended => true
  | .panicked => true

/-- A monitoring loop: its context, where it stands, and whether `stopCh` was closed or the
context cancelled since it was started. -/
structure Loop where
  ctx : ℕ
  pc : LoopPc
  signalled : Bool
  deriving DecidableEq, Repr

/-- Where a call of `Stop` that found the checker running stands. -/
inductive StopPc where
  | closing
  | waiting
  | returned
  | panicked
  deriving DecidableEq, Repr

/-- The call has closed `stopCh`. -/
def StopPc.closed : StopPc → Bool
  | .closing => false
  | .waiting => true
  | .returned => true
  | .panicked => false

/-- The flag, the channels that are closed, the contexts that are done, the loops that were
started and the calls of `Stop` that found the checker running. -/
structure State where
  running : Bool
  stopClosed : Bool
  stoppedClosed : Bool
  done : List ℕ
  loops : List Loop
  stops : List StopPc

/-- A new checker. -/
def init : State := ⟨false, false, false, [], [], []⟩

inductive LoopMove where
  | checked
  | tick
  | ctxDone
  | stopCh
  | clearRunning
  | closeStoppedCh

inductive StopMove where
  | closeStopCh
  | stoppedCh
  | timeout

/-- The calls, the cancellation of a context, and the steps of loops and calls under way. -/
inductive Action where
  | startMonitoring (ctx : ℕ)
  | stop
  | cancel (ctx : ℕ)
  | loop (i : ℕ) (move : LoopMove)
  | stopping (i : ℕ) (move : StopMove)

namespace State

variable (s : State)

def setLoop (i : ℕ) (l : Loop) (pc : LoopPc) : State :=
  { s with loops := s.loops.set i { l with pc := pc } }

def setStop (i : ℕ) (pc : StopPc) : State := { s with stops := s.stops.set i pc }

/-- The loops with the property are signalled. -/
def signal (p : Loop → Bool) : List Loop :=
  s.loops.map (fun l => { l with signalled := l.signalled || p l })

/-- A step of `monitoringLoop`. -/
def moveLoop (i : ℕ) (l : Loop) : LoopPc → LoopMove → Option State
  | .checking, .checked => some (s.setLoop i l .selecting)
  | .selecting, .tick => some (s.setLoop i l .checking)
  | .selecting, .ctxDone => if l.ctx ∈ s.done then some (s.setLoop i l .leaving) else none
  | .selecting, .stopCh => if s.stopClosed then some (s.setLoop i l .leaving) else none
  | .leaving, .clearRunning => some { s.setLoop i l .closing with running := false }
  | .closing, .closeStoppedCh =>
    if s.stoppedClosed then some (s.setLoop i l .panicked)
    else some { s.setLoop i l .ended with stoppedClosed := true }
  | _, _ => none

/-- A step of `Stop` after the checker was found running. -/
def moveStop (i : ℕ) : StopPc → StopMove → Option State
  | .closing, .closeStopCh =>
    if s.stopClosed then some (s.setStop i .panicked)
    else
      some { s.setStop i .waiting with
        stopClosed := true
        loops := s.signal (fun _ => true) }
  | .waiting, .stoppedCh => if s.stoppedClosed then some (s.setStop i .returned) else none
  | .waiting, .timeout => some (s.setStop i .returned)
  | _, _ => none

end State

def step (checkInterval : ℤ) (s : State) : Action → Option State
  | .startMonitoring ctx =>
    if checkInterval ≤ 0 then some s
    -- an error is returned if the checker is running
    else if s.running then some s
    else
      some { s with
        running := true
        loops := s.loops ++ [⟨ctx, .checking, false⟩] }
  | .stop => if s.running then some { s with stops := s.stops ++ [.closing] } else some s
  | .cancel ctx =>
    if ctx ∈ s.done then none
    else
      some { s with
        done := ctx :: s.done
        loops := s.signal (fun l => decide (l.ctx = ctx)) }
  | .loop i move => (s.loops[i]?).bind (fun l => s.moveLoop i l l.pc move)
  | .stopping i move => (s.stops[i]?).bind (fun pc => s.moveStop i pc move)

/-- A health checker that makes its checks at an interval. -/
def machine (checkInterval : ℤ) : Machine State Action := ⟨step checkInterval⟩

/-! ### The property -/

/-- No channel was closed twice, and every loop that has left was signalled after it was
started. -/
structure Lifecycle (s : State) : Prop where
  stopCh_once : ∀ pc ∈ s.stops, pc ≠ .panicked
  stoppedCh_once : ∀ l ∈ s.loops, l.pc ≠ .panicked
  not_early : ∀ l ∈ s.loops, l.pc.left = true → l.signalled = true

/-- Whether an action is a call. -/
def Action.isCall : Action → Bool
  | .startMonitoring _ => true
  | .stop => true
  | .cancel _ => false
  | .loop _ _ => false
  | .stopping _ _ => false

/-- The property holds, and goes on holding however the loops and calls under way go on. -/
def Safe (checkInterval : ℤ) : State → Prop :=
  (machine checkInterval).Persists (fun a => a.isCall = false) Lifecycle

/-- A `StartMonitoring` that finds the checker not running is the first one, and its context is
not done; a `Stop` that finds it running is the first one that does. -/
def UsedOnce (s : State) : Action → Prop
  | .startMonitoring ctx => s.running = false → s.loops = [] ∧ ctx ∉ s.done
  | .stop => s.running = true → s.stops = []
  | .cancel _ => True
  | .loop _ _ => True
  | .stopping _ _ => True

instance decidableUsedOnce (s : State) : ∀ a, Decidable (UsedOnce s a)
  | .startMonitoring _ => inferInstanceAs (Decidable (_ → _))
  | .stop => inferInstanceAs (Decidable (_ → _))
  | .cancel _ => isTrue trivial
  | .loop _ _ => isTrue trivial
  | .stopping _ _ => isTrue trivial

/-! ### Used once -/

/-- A checker with one loop and one call of `Stop` at most. -/
structure Orderly (s : State) (loop : Option Loop) (stop : Option StopPc) : Prop where
  loops : s.loops = loop.toList
  stops : s.stops = stop.toList
  running : s.running = loop.any (fun l => l.pc.active)
  stoppedClosed : s.stoppedClosed = loop.any (fun l => decide (l.pc = .ended))
  stopClosed : s.stopClosed = stop.any StopPc.closed
  started : stop.isSome → loop.isSome
  signalled : ∀ l ∈ loop, s.stopClosed = true ∨ l.ctx ∈ s.done → l.signalled = true
  loop_ne : ∀ l ∈ loop, l.pc ≠ .panicked
  left : ∀ l ∈ loop, l.pc.left = true → l.signalled = true
  stop_ne : ∀ pc ∈ stop, pc ≠ .panicked

section

variable {s t : State} {loop : Option Loop} {stop : Option StopPc}

theorem orderly_init :
  Orderly init none none
  := by
  constructor <;> simp [init]

theorem Orderly.lifecycle (h : Orderly s loop stop) :
  Lifecycle s
  := by
  refine ⟨?_, ?_, ?_⟩
  · rw [h.stops]
    intro pc hpc
    apply h.stop_ne pc (Option.mem_toList.mp hpc)
  · rw [h.loops]
    intro l hl
    apply h.loop_ne l (Option.mem_toList.mp hl)
  · rw [h.loops]
    intro l hl
    apply h.left l (Option.mem_toList.mp hl)

/-- The only loop there is. -/
theorem eq_of_getElem?_toList {α : Type} {x : Option α} {i : ℕ} {y : α}
    (h : x.toList[i]? = some y) :
  x = some y ∧ i = 0
  := by
  cases x with
  | none => simp at h
  | some z =>
    cases i with
    | zero => simpa using h
    | succ i => simp at h

/-- What a step of a loop does. -/
theorem moveLoop_cases {i : ℕ} {l : Loop} {pc : LoopPc} {move : LoopMove}
    (h : s.moveLoop i l pc move = some t) :
  (pc = .checking ∧ t = s.setLoop i l .selecting) ∨
    (pc = .selecting ∧ t = s.setLoop i l .checking) ∨
    (pc = .selecting ∧ (s.stopClosed = true ∨ l.ctx ∈ s.done) ∧ t = s.setLoop i l .leaving) ∨
    (pc = .leaving ∧ t = { s.setLoop i l .closing with running := false }) ∨
    (pc = .closing ∧ s.stoppedClosed = true ∧ t = s.setLoop i l .panicked) ∨
    (pc = .closing ∧ s.stoppedClosed = false ∧
      t = { s.setLoop i l .ended with stoppedClosed := true })
  := by
  rw [State.moveLoop.eq_def] at h
  split at h
  · simp [← Option.some.inj h]
  · simp [← Option.some.inj h]
  · obtain ⟨hdone, ht⟩ := Option.ite_none_right_eq_some.mp h
    simp [← Option.some.inj ht, hdone]
  · obtain ⟨hclosed, ht⟩ := Option.ite_none_right_eq_some.mp h
    simp [← Option.some.inj ht, hclosed]
  · simp [← Option.some.inj h]
  · split at h
    · rename_i hclosed
      simp [← Option.some.inj h, hclosed]
    · rename_i hopen
      simp [← Option.some.inj h, hopen]
  · cases h

/-- What a step of a `Stop` does. -/
theorem moveStop_cases {i : ℕ} {pc : StopPc} {move : StopMove}
    (h : s.moveStop i pc move = some t) :
  (pc = .closing ∧ s.stopClosed = true ∧ t = s.setStop i .panicked) ∨
    (pc = .closing ∧ s.stopClosed = false ∧
      t = { s.setStop i .waiting with
            stopClosed := true
            loops := s.signal (fun _ => true) }) ∨
    (pc = .waiting ∧ t = s.setStop i .returned)
  := by
  rw [State.moveStop.eq_def] at h
  split at h
  · split at h
    · rename_i hclosed
      simp [← Option.some.inj h, hclosed]
    · rename_i hopen
      simp [← Option.some.inj h, hopen]
  · obtain ⟨-, ht⟩ := Option.ite_none_right_eq_some.mp h
    simp [← Option.some.inj ht]
  · simp [← Option.some.inj h]
  · cases h

/-- The loop moves on. -/
theorem Orderly.setLoop {l : Loop} (h : Orderly s (some l) stop) {pc : LoopPc}
    {running stoppedClosed : Bool} (hrunning : running = pc.active)
    (hstopped : stoppedClosed = decide (pc = .ended)) (hne : pc ≠ .panicked)
    (hleft : pc.left = true → l.signalled = true) :
  Orderly
    ⟨running, s.stopClosed, stoppedClosed, s.done, s.loops.set 0 { l with pc := pc }, s.stops⟩
    (some { l with pc := pc }) stop
  := by
  refine ⟨?_, h.stops, hrunning, hstopped, h.stopClosed, fun _ => rfl, ?_, ?_, ?_, h.stop_ne⟩
  · rw [h.loops]
    rfl
  · intro l' hl'
    obtain rfl := Option.some.inj hl'
    apply h.signalled l rfl
  · intro l' hl'
    obtain rfl := Option.some.inj hl'
    apply hne
  · intro l' hl'
    obtain rfl := Option.some.inj hl'
    apply hleft

/-- The steps of the only loop. -/
theorem Orderly.moveLoop (h : Orderly s loop stop) {i : ℕ} {l : Loop} {move : LoopMove}
    (hl : s.loops[i]? = some l) (ht : s.moveLoop i l l.pc move = some t) :
  ∃ loop', Orderly t loop' stop
  := by
  rw [h.loops] at hl
  obtain ⟨rfl, rfl⟩ := eq_of_getElem?_toList hl
  have hrunning := h.running
  have hstopped := h.stoppedClosed
  have hleft := h.left l rfl
  rw [Option.any_some] at hrunning hstopped
  obtain ⟨hpc, rfl⟩ | ⟨hpc, rfl⟩ | ⟨hpc, hsignal, rfl⟩ | ⟨hpc, rfl⟩ | ⟨hpc, hclosed, -⟩ |
    ⟨hpc, -, rfl⟩ := moveLoop_cases ht
  · rw [hpc] at hrunning hstopped
    exact ⟨_, h.setLoop hrunning hstopped (by decide) (fun hfalse => by cases hfalse)⟩
  · rw [hpc] at hrunning hstopped
    exact ⟨_, h.setLoop hrunning hstopped (by decide) (fun hfalse => by cases hfalse)⟩
  · rw [hpc] at hrunning hstopped
    exact ⟨_, h.setLoop hrunning hstopped (by decide) (fun _ => h.signalled l rfl hsignal)⟩
  · rw [hpc] at hleft hstopped
    exact ⟨_, h.setLoop rfl hstopped (by decide) (fun _ => hleft rfl)⟩
  · -- the only loop has not closed the channel before
    rw [hstopped, hpc] at hclosed
    cases hclosed
  · rw [hpc] at hleft hrunning
    exact ⟨_, h.setLoop hrunning rfl (by decide) (fun _ => hleft rfl)⟩

/-- The loop is signalled, by a property that holds of it if a context is done or `stopCh`
closed that was not before. -/
theorem Orderly.signal {l : Loop} (h : Orderly s (some l) stop) (p : Loop → Bool)
    (stop' : Option StopPc) {stopClosed : Bool} {done : List ℕ}
    (hstop : stopClosed = stop'.any StopPc.closed) (hne : ∀ pc ∈ stop', pc ≠ .panicked)
    (hsignal : stopClosed = true ∨ l.ctx ∈ done →
      (s.stopClosed = true ∨ l.ctx ∈ s.done) ∨ p l = true) :
  Orderly ⟨s.running, stopClosed, s.stoppedClosed, done, s.signal p, stop'.toList⟩
    (some { l with signalled := l.signalled || p l }) stop'
  := by
  refine ⟨?_, rfl, h.running, h.stoppedClosed, hstop, fun _ => rfl, ?_, ?_, ?_, hne⟩
  · rw [State.signal, h.loops]
    rfl
  · intro l' hl' hsignal'
    obtain rfl := Option.some.inj hl'
    obtain hbefore | hnow := hsignal hsignal'
    · rw [h.signalled l rfl hbefore, Bool.true_or]
    · rw [hnow, Bool.or_true]
  · intro l' hl'
    obtain rfl := Option.some.inj hl'
    apply h.loop_ne l rfl
  · intro l' hl' hleft
    obtain rfl := Option.some.inj hl'
    rw [h.left l rfl hleft, Bool.true_or]

/-- The steps of the only call of `Stop`. -/
theorem Orderly.moveStop (h : Orderly s loop stop) {i : ℕ} {pc : StopPc} {move : StopMove}
    (hpc : s.stops[i]? = some pc) (ht : s.moveStop i pc move = some t) :
  ∃ loop' stop', Orderly t loop' stop'
  := by
  rw [h.stops] at hpc
  obtain ⟨rfl, rfl⟩ := eq_of_getElem?_toList hpc
  have hclosed := h.stopClosed
  rw [Option.any_some] at hclosed
  obtain ⟨l, rfl⟩ := Option.isSome_iff_exists.mp (h.started rfl)
  obtain ⟨rfl, hclosed', -⟩ | ⟨rfl, -, rfl⟩ | ⟨rfl, rfl⟩ := moveStop_cases ht
  · -- the only call has not closed the channel before
    rw [hclosed] at hclosed'
    cases hclosed'
  · have hnext : Orderly ⟨s.running, true, s.stoppedClosed, s.done, s.signal (fun _ => true),
        [.waiting]⟩ (some { l with signalled := l.signalled || true }) (some .waiting) :=
      h.signal (fun _ => true) (some .waiting) rfl (by decide) (fun _ => Or.inr rfl)
    rw [State.setStop, h.stops]
    exact ⟨_, _, hnext⟩
  · refine ⟨some l, some .returned, h.loops, ?_, h.running, h.stoppedClosed, hclosed,
      fun _ => rfl, h.signalled, h.loop_ne, h.left, by decide⟩
    rw [State.setStop, h.stops]
    rfl

theorem Orderly.startMonitoring (h : Orderly s loop stop) {ctx : ℕ} (hfirst : s.loops = [])
    (hctx : ctx ∉ s.done) :
  Orderly { s with running := true, loops := s.loops ++ [⟨ctx, .checking, false⟩] }
    (some ⟨ctx, .checking, false⟩) none
  := by
  obtain rfl : loop = none := by
    have hloops := h.loops
    rw [hfirst] at hloops
    simpa using hloops.symm
  obtain rfl : stop = none := by
    cases stop with
    | none => rfl
    | some pc => exact absurd (h.started rfl) (by simp)
  refine ⟨?_, h.stops, rfl, h.stoppedClosed, h.stopClosed, fun _ => rfl, ?_, ?_, ?_, ?_⟩
  · rw [hfirst]
    rfl
  · intro l hl hsignal
    obtain rfl := Option.some.inj hl
    obtain hclosed | hdone := hsignal
    · rw [h.stopClosed] at hclosed
      cases hclosed
    · exact absurd hdone hctx
  · intro l hl
    obtain rfl := Option.some.inj hl
    apply LoopPc.noConfusion
  · intro l hl hleft
    obtain rfl := Option.some.inj hl
    cases hleft
  · intro pc hpc
    cases hpc

theorem Orderly.stopCall (h : Orderly s loop stop) (hrunning : s.running = true)
    (hfirst : s.stops = []) :
  Orderly { s with stops := s.stops ++ [.closing] } loop (some .closing)
  := by
  obtain rfl : stop = none := by
    have hstops := h.stops
    rw [hfirst] at hstops
    simpa using hstops.symm
  have hsome : loop.isSome := by
    cases loop with
    | none =>
      rw [h.running] at hrunning
      cases hrunning
    | some l => rfl
  refine ⟨h.loops, ?_, h.running, h.stoppedClosed, h.stopClosed, fun _ => hsome, h.signalled,
    h.loop_ne, h.left, by decide⟩
  rw [hfirst]
  rfl

theorem Orderly.cancel (h : Orderly s loop stop) (ctx : ℕ) :
  ∃ loop', Orderly
    { s with done := ctx :: s.done, loops := s.signal (fun l => decide (l.ctx = ctx)) } loop' stop
  := by
  cases loop with
  | none =>
    refine ⟨none, ?_, h.stops, h.running, h.stoppedClosed, h.stopClosed, h.started, ?_, ?_, ?_,
      h.stop_ne⟩
    · rw [State.signal, h.loops]
      rfl
    · intro l hl
      cases hl
    · intro l hl
      cases hl
    · intro l hl
      cases hl
  | some l =>
    have hsignal : s.stopClosed = true ∨ l.ctx ∈ ctx :: s.done →
        (s.stopClosed = true ∨ l.ctx ∈ s.done) ∨ decide (l.ctx = ctx) = true := by
      rintro (hclosed | hmem)
      · apply Or.inl (Or.inl hclosed)
      · obtain heq | hmem := List.mem_cons.mp hmem
        · apply Or.inr (decide_eq_true heq)
        · apply Or.inl (Or.inr hmem)
    have hnext := h.signal (fun l => decide (l.ctx = ctx)) stop h.stopClosed h.stop_ne hsignal
    rw [← h.stops] at hnext
    exact ⟨_, hnext⟩

/-- A step that uses the checker once keeps it orderly. -/
theorem orderly_step {checkInterval : ℤ} (s : State) (a : Action) (t : State)
    (h : ∃ loop stop, Orderly s loop stop) (hused : UsedOnce s a)
    (ht : (machine checkInterval).step s a = some t) :
  ∃ loop stop, Orderly t loop stop
  := by
  obtain ⟨loop, stop, h⟩ := h
  simp only [machine, step.eq_def] at ht
  cases a with
  | startMonitoring ctx =>
    dsimp only at ht
    split at ht
    · obtain rfl := Option.some.inj ht
      exact ⟨loop, stop, h⟩
    · split at ht
      · obtain rfl := Option.some.inj ht
        exact ⟨loop, stop, h⟩
      · rename_i hrunning
        obtain ⟨hfirst, hctx⟩ := hused (Bool.eq_false_of_not_eq_true hrunning)
        obtain rfl := Option.some.inj ht
        exact ⟨_, _, h.startMonitoring hfirst hctx⟩
  | stop =>
    dsimp only at ht
    split at ht
    · rename_i hrunning
      obtain rfl := Option.some.inj ht
      exact ⟨_, _, h.stopCall hrunning (hused hrunning)⟩
    · obtain rfl := Option.some.inj ht
      exact ⟨loop, stop, h⟩
  | cancel ctx =>
    obtain ⟨-, ht⟩ := Option.ite_none_left_eq_some.mp ht
    obtain rfl := Option.some.inj ht
    obtain ⟨loop', h'⟩ := h.cancel ctx
    exact ⟨loop', stop, h'⟩
  | loop i move =>
    obtain ⟨l, hl, ht⟩ := Option.bind_eq_some_iff.mp ht
    obtain ⟨loop', h'⟩ := h.moveLoop hl ht
    exact ⟨loop', stop, h'⟩
  | stopping i move =>
    obtain ⟨pc, hpc, ht⟩ := Option.bind_eq_some_iff.mp ht
    apply h.moveStop hpc ht

/-! ### Used again -/

variable {checkInterval : ℤ}

theorem Safe.lifecycle (h : Safe checkInterval s) :
  Lifecycle s
  := Machine.Persists.holds h

/-- A checker stays safe when a loop takes a step. -/
theorem Safe.moveLoop (h : Safe checkInterval s) (i : ℕ) (move : LoopMove) {l : Loop}
    (hl : s.loops[i]? = some l) (ht : s.moveLoop i l l.pc move = some t) :
  Safe checkInterval t
  := by
  apply Machine.Persists.step h (a := .loop i move) rfl
  simp only [machine, step, hl, Option.bind_some, ht]

/-- A checker stays safe when a call of `Stop` takes a step. -/
theorem Safe.moveStop (h : Safe checkInterval s) (i : ℕ) (move : StopMove) {pc : StopPc}
    (hpc : s.stops[i]? = some pc) (ht : s.moveStop i pc move = some t) :
  Safe checkInterval t
  := by
  apply Machine.Persists.step h (a := .stopping i move) rfl
  simp only [machine, step, hpc, Option.bind_some, ht]

theorem Safe.cancel (h : Safe checkInterval s) {ctx : ℕ} (hctx : ctx ∉ s.done) :
  Safe checkInterval
    { s with done := ctx :: s.done, loops := s.signal (fun l => decide (l.ctx = ctx)) }
  := Machine.Persists.step h (a := .cancel ctx) rfl (if_neg hctx)

/-- A loop started with a context that is done leaves at once. -/
theorem not_safe_of_done {ctx : ℕ} (hctx : ctx ∈ s.done) :
  ¬ Safe checkInterval
    { s with running := true, loops := s.loops ++ [⟨ctx, .checking, false⟩] }
  := by
  intro h
  have hlast : ∀ pc, (s.loops ++ [⟨ctx, pc, false⟩])[s.loops.length]? = some ⟨ctx, pc, false⟩ :=
    fun _ => List.getElem?_concat_length
  have hset : ∀ pc pc', List.set (s.loops ++ [⟨ctx, pc, false⟩]) s.loops.length ⟨ctx, pc', false⟩ =
      s.loops ++ [⟨ctx, pc', false⟩] := fun _ _ => by simp
  have hselecting := h.moveLoop s.loops.length .checked (hlast .checking) rfl
  rw [State.setLoop, hset] at hselecting
  have hleaving := hselecting.moveLoop s.loops.length .ctxDone (hlast .selecting) (if_pos hctx)
  rw [State.setLoop, hset] at hleaving
  have hearly := hleaving.lifecycle.not_early _ (List.mem_of_getElem? (hlast .leaving)) rfl
  cases hearly

/-- A second loop closes `stoppedCh` again when it ends. -/
theorem not_safe_of_stoppedClosed {l : Loop} {ctx : ℕ} (hctx : ctx ∉ s.done)
    (hclosed : s.stoppedClosed = true) (hloops : s.loops = [l, ⟨ctx, .checking, false⟩]) :
  ¬ Safe checkInterval s
  := by
  obtain ⟨running, stopClosed, stoppedClosed, done, loops, stops⟩ := s
  dsimp only at hctx hclosed hloops
  subst hclosed hloops
  intro h
  have hselecting := (h.cancel hctx).moveLoop 1 .checked rfl rfl
  have hleaving := hselecting.moveLoop 1 .ctxDone rfl (if_pos List.mem_cons_self)
  have hclosing := hleaving.moveLoop 1 .clearRunning rfl rfl
  have hpanicked := hclosing.moveLoop 1 .closeStoppedCh rfl rfl
  apply hpanicked.lifecycle.stoppedCh_once _ (List.mem_of_getElem? (i := 1) rfl) rfl

/-- A checker that was started before is not started again. -/
theorem not_safe_of_restarted {l : Loop} (h : Orderly s (some l) stop)
    (hrunning : s.running = false) {ctx : ℕ} (hctx : ctx ∉ s.done) :
  ¬ Safe checkInterval
    { s with running := true, loops := s.loops ++ [⟨ctx, .checking, false⟩] }
  := by
  have hloops := h.loops
  have hstopped := h.stoppedClosed
  rw [h.running, Option.any_some] at hrunning
  rw [Option.any_some] at hstopped
  cases hpc : l.pc with
  | checking =>
    rw [hpc] at hrunning
    cases hrunning
  | selecting =>
    rw [hpc] at hrunning
    cases hrunning
  | leaving =>
    rw [hpc] at hrunning
    cases hrunning
  | panicked => exact absurd hpc (h.loop_ne l rfl)
  | ended =>
    rw [hpc] at hstopped
    apply not_safe_of_stoppedClosed (l := l)
    · apply hctx
    · apply hstopped
    · rw [hloops]
      rfl
  | closing =>
    -- the first loop closes the channel before the second one does
    rw [hpc] at hstopped
    intro hsafe
    have hnext : Safe checkInterval
        { s with
          running := true
          stoppedClosed := true
          loops := [{ l with pc := .ended }, ⟨ctx, .checking, false⟩] } := by
      apply hsafe.moveLoop 0 .closeStoppedCh (l := l)
      · rw [hloops]
        rfl
      · simp [State.moveLoop, State.setLoop, hloops, hpc, hstopped]
    exact absurd hnext (not_safe_of_stoppedClosed hctx rfl rfl)

/-- A call of `Stop` panics if `stopCh` is closed. -/
theorem not_safe_of_stopClosed {pc : StopPc} (hclosed : s.stopClosed = true)
    (hstops : s.stops = [pc, .closing]) :
  ¬ Safe checkInterval s
  := by
  obtain ⟨running, stopClosed, stoppedClosed, done, loops, stops⟩ := s
  dsimp only at hclosed hstops
  subst hclosed hstops
  intro h
  have hpanicked := h.moveStop 1 .closeStopCh rfl rfl
  apply hpanicked.lifecycle.stopCh_once _ (List.mem_of_getElem? (i := 1) rfl) rfl

/-- A second `Stop` does not find the checker running. -/
theorem not_safe_of_stopped {pc : StopPc} (h : Orderly s loop (some pc)) :
  ¬ Safe checkInterval { s with stops := s.stops ++ [.closing] }
  := by
  have hstops := h.stops
  have hclosed := h.stopClosed
  rw [Option.any_some] at hclosed
  cases pc with
  | panicked => exact absurd rfl (h.stop_ne .panicked rfl)
  | closing =>
    -- the first call closes the channel before the second one does
    intro hsafe
    have hnext : Safe checkInterval
        { s with
          stopClosed := true
          loops := s.signal (fun _ => true)
          stops := [.waiting, .closing] } := by
      apply hsafe.moveStop 0 .closeStopCh
      · rw [hstops]
        rfl
      · simp [State.moveStop, State.setStop, State.signal, hstops, hclosed, StopPc.closed]
    exact absurd hnext (not_safe_of_stopClosed rfl rfl)
  | waiting =>
    apply not_safe_of_stopClosed
    · apply hclosed
    · rw [hstops]
      rfl
  | returned =>
    apply not_safe_of_stopClosed
    · apply hclosed
    · rw [hstops]
      rfl

/-- A step after which the property persists uses the checker once. -/
theorem usedOnce_of_safe (hinterval : 0 < checkInterval) (s : State) (a : Action) (t : State)
    (h : ∃ loop stop, Orderly s loop stop) (ht : (machine checkInterval).step s a = some t)
    (hsafe : Safe checkInterval t) :
  UsedOnce s a
  := by
  obtain ⟨loop, stop, h⟩ := h
  cases a with
  | startMonitoring ctx =>
    intro hrunning
    simp only [machine, step, if_neg (not_le.mpr hinterval), hrunning, Bool.false_eq_true,
      if_false] at ht
    obtain rfl := Option.some.inj ht
    have hctx : ctx ∉ s.done := by
      intro hctx
      apply not_safe_of_done hctx hsafe
    cases loop with
    | none => exact ⟨h.loops, hctx⟩
    | some l => exact absurd hsafe (not_safe_of_restarted h hrunning hctx)
  | stop =>
    intro hrunning
    simp only [machine, step, if_pos hrunning] at ht
    obtain rfl := Option.some.inj ht
    cases stop with
    | none => apply h.stops
    | some pc => exact absurd hsafe (not_safe_of_stopped h)
  | cancel ctx => trivial
  | loop i move => trivial
  | stopping i move => trivial

end

/-- In a run of a checker with a positive interval, no channel is closed twice and no loop
leaves too early, however the steps under way go on, exactly when the checker is started once,
with a context that is not done, and only one `Stop` finds it running. -/
theorem lifecycle_iff_usedOnce (checkInterval : ℤ) (hinterval : 0 < checkInterval)
    (actions : List Action) :
  (machine checkInterval).Always (Safe checkInterval) init actions ↔
    (machine checkInterval).Meets UsedOnce init actions
  := by
  apply Machine.always_persists_iff_meets (K := fun s => ∃ loop stop, Orderly s loop stop)
  · rintro s ⟨loop, stop, h⟩
    apply h.lifecycle
  · apply orderly_step
  · intro s a ha
    cases a with
    | startMonitoring ctx => cases ha
    | stop => cases ha
    | cancel ctx => trivial
    | loop i move => trivial
    | stopping i move => trivial
  · apply usedOnce_of_safe hinterval
  · exact ⟨none, none, orderly_init⟩

/-- Two calls of `Stop` before the loop has left close `stopCh` twice; and a checker that is
stopped and started again has a loop that leaves at once and closes `stoppedCh` twice. -/
theorem closed_twice :
  (∃ t, (machine 1).run init
      [.startMonitoring 0, .stop, .stop, .stopping 0 .closeStopCh, .stopping 1 .closeStopCh]
        = some t ∧
      t.stops = [.waiting, .panicked] ∧ ¬ Lifecycle t) ∧
    ∃ t, (machine 1).run init
      [.startMonitoring 0, .stop, .stopping 0 .closeStopCh, .loop 0 .checked, .loop 0 .stopCh,
        .loop 0 .clearRunning, .loop 0 .closeStoppedCh, .startMonitoring 1, .loop 1 .checked,
        .loop 1 .stopCh, .loop 1 .clearRunning, .loop 1 .closeStoppedCh] = some t ∧
      t.loops = [⟨0, .ended, true⟩, ⟨1, .panicked, false⟩] ∧ ¬ Lifecycle t
  := by
  constructor
  · refine ⟨_, rfl, rfl, ?_⟩
    intro h
    apply h.stopCh_once .panicked (by decide) rfl
  · refine ⟨_, rfl, rfl, ?_⟩
    intro h
    apply h.stoppedCh_once ⟨1, .panicked, false⟩ (by decide) rfl

/-- A checker that is started and stopped, and asked to stop again later. -/
theorem lifecycle_start_stop :
  (0 : ℤ) < 1 ∧
    (machine 1).Always (Safe 1) init
      [.startMonitoring 0, .loop 0 .checked, .loop 0 .tick, .stop, .stopping 0 .closeStopCh,
        .loop 0 .checked, .loop 0 .stopCh, .loop 0 .clearRunning, .loop 0 .closeStoppedCh,
        .stopping 0 .stoppedCh, .stop]
  := by
  use Int.one_pos
  apply (lifecycle_iff_usedOnce 1 Int.one_pos _).mpr
  decide +kernel

end Monitoring

end Proxy

end VmProxyAuth
