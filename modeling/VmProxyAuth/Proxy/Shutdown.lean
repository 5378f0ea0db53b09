import VmProxyAuth.Lib.Machine
import VmProxyAuth.Proxy.Queue

/-!
# Shutting the queue down

Any number of calls of `Enqueue` and `Dequeue` on one queue, in any interleaving of their steps
with each other, with `Close`, with the cancellation of contexts and with the time.  A call
checks the flag in one step and uses the channel in a later one, and `Close` may come between
the two.  What is received is a prefix of what was sent, and is counted exactly, however the
calls under way go on, exactly if a `Close` finds no `Enqueue` between its two steps, and no more
calls of `Dequeue` there than there are requests in the queue.
-/

namespace VmProxyAuth

namespace Queue

/-- The call is about to use the channel. -/
def EnqueuePc.selecting : EnqueuePc → Bool
  | .select => true
  | _ => false

/-- The request has just been sent. -/
def EnqueuePc.justSent : EnqueuePc → Bool
  | .count => true
  | _ => false

/-- The request the call has just received. -/
def DequeuePc.justReceived {α : Type} : DequeuePc α → Option α
  | .count req => some req
  | _ => none

/-- The call has returned a request. -/
def DequeuePc.succeeded {α : Type} : DequeuePc α → Bool
  | .returned (.ok _) => true
  | _ => false

namespace Shutdown

variable {α : Type}

/-! ### Steps -/

/-- A call of `Enqueue`. -/
structure EnqueueCall (α : Type) where
  ctx : ℕ
  req : α
  pc : EnqueuePc

/-- A call of `Dequeue`. -/
structure DequeueCall (α : Type) where
  ctx : ℕ
  pc : DequeuePc α

/-- The queue, the time, the contexts that are done and the calls that were made; with the
requests sent on the channel, and the requests received from it by the calls that received them,
both in their order. -/
structure State (α : Type) where
  mq : MemoryQueue α
  now : ℤ
  done : List ℕ
  enqueues : List (EnqueueCall α)
  dequeues : List (DequeueCall α)
  accepted : List α
  received : List (ℕ × α)

/-- A new queue. -/
def init (maxSize : ℕ) (timeout : ℤ) : State α :=
  ⟨MemoryQueue.new maxSize timeout, 0, [], [], [], [], []⟩

/-- The calls, what happens around them, and the steps of the calls under way. -/
inductive Action (α : Type) where
  | enqueue (ctx : ℕ) (req : α)
  | dequeue (ctx : ℕ)
  | close
  | cancel (ctx : ℕ)
  | advance (duration : ℕ)
  | moveEnqueue (i : ℕ) (choice : Choice)
  | moveDequeue (i : ℕ) (choice : Choice)

namespace State

variable (s : State α)

def setEnqueue (i : ℕ) (call : EnqueueCall α) (mq : MemoryQueue α) (pc : EnqueuePc) : State α :=
  { s with
    mq := mq
    enqueues := s.enqueues.set i { call with pc := pc }
    accepted := s.accepted ++ if pc.justSent then [call.req] else [] }

def setDequeue (i : ℕ) (call : DequeueCall α) (mq : MemoryQueue α) (pc : DequeuePc α) :
    State α :=
  { s with
    mq := mq
    dequeues := s.dequeues.set i { call with pc := pc }
    received := s.received ++ (pc.justReceived.map (fun req => (i, req))).toList }

/-- The request a call of `Dequeue` has taken. -/
def takenBy (i : ℕ) : Option α := (s.dequeues[i]?).bind (fun call => call.pc.taken)

/-- The number of calls of `Dequeue` about to use the channel. -/
def waiting : ℕ := s.dequeues.countP (fun call => call.pc.waiting)

/-- The number of calls of `Dequeue` that returned a request. -/
def succeeded : ℕ := s.dequeues.countP (fun call => call.pc.succeeded)

end State

def step (s : State α) : Action α → Option (State α)
  | .enqueue ctx req => some { s with enqueues := s.enqueues ++ [⟨ctx, req, .check⟩] }
  | .dequeue ctx => some { s with dequeues := s.dequeues ++ [⟨ctx, .check⟩] }
  | .close => some { s with mq := s.mq.close }
  | .cancel ctx => some { s with done := ctx :: s.done }
  | .advance duration => some { s with now := s.now + duration }
  | .moveEnqueue i choice =>
    (s.enqueues[i]?).bind (fun call =>
      (s.mq.enqueueStep (decide (call.ctx ∈ s.done)) call.req call.pc choice).map (fun next =>
        s.setEnqueue i call next.1 next.2))
  | .moveDequeue i choice =>
    (s.dequeues[i]?).bind (fun call =>
      (s.mq.dequeueStep s.now (decide (call.ctx ∈ s.done)) call.pc choice).map (fun next =>
        s.setDequeue i call next.1 next.2))

def machine : Machine (State α) (Action α) := ⟨step⟩

/-! ### The property -/

/-- No call has sent on a closed channel or received nil; the requests received are a prefix of
those accepted, each received by one call, which returns it; and the counter counts the calls
that returned one. -/
structure Sound (s : State α) : Prop where
  send_ok : ∀ call ∈ s.enqueues, call.pc ≠ .panicked
  no_nil : ∀ call ∈ s.dequeues, call.pc ≠ .panicked
  in_order : s.received.map Prod.snd <+: s.accepted
  once : (s.received.map Prod.fst).Nodup
  returned : ∀ i req, (i, req) ∈ s.received ↔ s.takenBy i = some req
  counted : s.mq.dequeuedCount = s.succeeded

/-- Whether an action is a step of a call under way. -/
def Action.isMove : Action α → Bool
  | .moveEnqueue _ _ => true
  | .moveDequeue _ _ => true
  | _ => false

/-- The property holds, and goes on holding however the calls under way go on. -/
def Safe : State α → Prop := machine.Persists (fun a => a.isMove = true) Sound

/-- No `Enqueue` is about to use the channel, and no more calls of `Dequeue` than there are
requests in the queue. -/
def Quiet (s : State α) : Prop :=
  (∀ call ∈ s.enqueues, call.pc.selecting = false) ∧ s.waiting ≤ s.mq.size

/-- The first `Close` comes when the queue is quiet. -/
def ClosesQuietly (s : State α) : Action α → Prop
  | .close => s.mq.closed = false → Quiet s
  | _ => True

/-! ### Steps of one call -/

/-- What a step of `Enqueue` does. -/
theorem enqueueStep_cases {mq mq' : MemoryQueue α} {cancelled : Bool} {req : α}
    {pc pc' : EnqueuePc} {choice : Choice}
    (h : mq.enqueueStep cancelled req pc choice = some (mq', pc')) :
  mq'.closed = mq.closed ∧ mq'.queue.closed = mq.queue.closed ∧
    mq'.dequeuedCount = mq.dequeuedCount ∧
    ((pc' = .count ∧ mq.queue.closed = false ∧
        mq'.queue.buffer = mq.queue.buffer ++ [req]) ∨
      (pc = .select ∧ mq.queue.closed = true) ∨
      (pc'.justSent = false ∧ pc' ≠ .panicked ∧ (pc'.selecting = true → mq.closed = false) ∧
        mq'.queue.buffer = mq.queue.buffer))
  := by
  rw [MemoryQueue.enqueueStep.eq_def] at h
  split at h
  · cases h
    cases mq.closed with
    | true => simp [EnqueuePc.justSent, EnqueuePc.selecting]
    | false => simp [EnqueuePc.justSent]
  · split at h
    · rename_i queue hsent
      cases h
      obtain ⟨hopen, hbuffer⟩ := Chan.buffer_of_sent hsent
      exact ⟨rfl, Chan.closed_of_sent hsent, rfl, Or.inl ⟨rfl, hopen, hbuffer⟩⟩
    · rename_i hpanics
      cases h
      exact ⟨rfl, rfl, rfl, Or.inr (Or.inl ⟨rfl, Chan.closed_of_panics hpanics⟩)⟩
    · cases h
  · obtain ⟨-, h⟩ := Option.ite_none_right_eq_some.mp h
    cases h
    simp [EnqueuePc.justSent, EnqueuePc.selecting]
  · obtain ⟨-, h⟩ := Option.ite_none_right_eq_some.mp h
    cases h
    simp [EnqueuePc.justSent, EnqueuePc.selecting]
  · cases h
    simp [EnqueuePc.justSent, EnqueuePc.selecting]
  · cases h
    simp [EnqueuePc.justSent, EnqueuePc.selecting]
  · cases h

theorem taken_of_waiting {pc : DequeuePc α} (h : pc.waiting = true) :
  pc.taken = none
  := by
  cases pc with
  | select deadline => rfl
  | block deadline => rfl
  | check => cases h
  | count req => cases h
  | returned result => cases h
  | panicked => cases h

theorem succeeded_of_taken {pc : DequeuePc α} (h : pc.taken = none) :
  pc.succeeded = false ∧ pc.justReceived = none
  := by
  cases pc with
  | select deadline => exact ⟨rfl, rfl⟩
  | block deadline => exact ⟨rfl, rfl⟩
  | check => exact ⟨rfl, rfl⟩
  | count req => cases h
  | returned result =>
    cases result with
    | error err => exact ⟨rfl, rfl⟩
    | ok req => cases h
  | panicked => exact ⟨rfl, rfl⟩

/-! ### The logs and the calls -/

/-- What a change of one element does to a count. -/
theorem countP_set_add {β : Type} (p : β → Bool) {l : List β} {i : ℕ} {x : β} (y : β)
    (h : l[i]? = some x) :
  (l.set i y).countP p + (p x).toNat = l.countP p + (p y).toNat
  := by
  obtain ⟨hi, rfl⟩ := List.getElem?_eq_some_iff.mp h
  rw [List.countP_set hi]
  cases hx : p l[i] with
  | false => cases p y <;> simp
  | true =>
    have hpos : 0 < l.countP p := List.countP_pos_iff.mpr ⟨l[i], List.getElem_mem hi, hx⟩
    cases p y <;> simp <;> omega

section

variable {s t : State α}

theorem takenBy_setDequeue {i : ℕ} {call : DequeueCall α} {mq : MemoryQueue α}
    {pc : DequeuePc α} (hcall : s.dequeues[i]? = some call) (j : ℕ) :
  (s.setDequeue i call mq pc).takenBy j = if i = j then pc.taken else s.takenBy j
  := by
  obtain ⟨hi, -⟩ := List.getElem?_eq_some_iff.mp hcall
  rw [State.takenBy, State.setDequeue, List.getElem?_set]
  by_cases hij : i = j
  · simp [hij, hij ▸ hi]
  · simp [hij, State.takenBy]

theorem waiting_setDequeue {i : ℕ} {call : DequeueCall α} (mq : MemoryQueue α)
    (pc : DequeuePc α) (hcall : s.dequeues[i]? = some call) :
  (s.setDequeue i call mq pc).waiting + call.pc.waiting.toNat = s.waiting + pc.waiting.toNat
  := countP_set_add (fun c : DequeueCall α => c.pc.waiting) { call with pc := pc } hcall

theorem succeeded_setDequeue {i : ℕ} {call : DequeueCall α} (mq : MemoryQueue α)
    (pc : DequeuePc α) (hcall : s.dequeues[i]? = some call) :
  (s.setDequeue i call mq pc).succeeded + call.pc.succeeded.toNat =
    s.succeeded + pc.succeeded.toNat
  := countP_set_add (fun c : DequeueCall α => c.pc.succeeded) { call with pc := pc } hcall

/-- The queue with its logs: what was sent has been received or is in the buffer, and a queue
that is closed was closed quietly. -/
structure Orderly (s : State α) : Prop extends Sound s where
  flag : s.mq.queue.closed = s.mq.closed
  log : s.accepted = s.received.map Prod.snd ++ s.mq.queue.buffer
  quiet : s.mq.closed = true → Quiet s

theorem orderly_init (maxSize : ℕ) (timeout : ℤ) :
  Orderly (init maxSize timeout : State α)
  := by
  refine ⟨⟨?_, ?_, ?_, ?_, ?_, ?_⟩, ?_, ?_, ?_⟩ <;>
    simp [init, State.takenBy, State.succeeded, MemoryQueue.new, Chan.make]

/-- The steps of a call of `Enqueue`. -/
theorem Orderly.moveEnqueue (h : Orderly s) {i : ℕ} {call : EnqueueCall α} {cancelled : Bool}
    {choice : Choice} {mq : MemoryQueue α} {pc : EnqueuePc} (hcall : s.enqueues[i]? = some call)
    (hstep : s.mq.enqueueStep cancelled call.req call.pc choice = some (mq, pc)) :
  Orderly (s.setEnqueue i call mq pc)
  := by
  obtain ⟨hclosed, hchan, hcount, hcases⟩ := enqueueStep_cases hstep
  have hflag : mq.queue.closed = mq.closed := by rw [hchan, hclosed, h.flag]
  have hcounted : mq.dequeuedCount = s.succeeded := hcount.trans h.counted
  have hsend : pc ≠ .panicked →
      ∀ c ∈ s.enqueues.set i { call with pc := pc }, c.pc ≠ .panicked := by
    intro hpc c hc
    obtain hc | rfl := List.mem_or_eq_of_mem_set hc
    · apply h.send_ok c hc
    · apply hpc
  obtain ⟨rfl, hopen, hbuffer⟩ | ⟨hpc, hpanics⟩ | ⟨hsent, hpc, hselecting, hbuffer⟩ := hcases
  · have hlog : s.accepted ++ [call.req] = s.received.map Prod.snd ++ mq.queue.buffer := by
      rw [h.log, hbuffer, List.append_assoc]
    refine ⟨⟨hsend EnqueuePc.noConfusion, h.no_nil, ⟨_, hlog.symm⟩, h.once, h.returned, hcounted⟩,
      hflag, hlog, ?_⟩
    intro hclosed'
    rw [State.setEnqueue, hclosed, ← h.flag, hopen] at hclosed'
    cases hclosed'
  · -- a queue that was closed quietly has no call about to send
    rw [h.flag] at hpanics
    have hnot := (h.quiet hpanics).1 call (List.mem_of_getElem? hcall)
    rw [hpc] at hnot
    cases hnot
  · have hlog : (s.setEnqueue i call mq pc).accepted =
        s.received.map Prod.snd ++ mq.queue.buffer := by
      rw [hbuffer, ← h.log, State.setEnqueue, hsent]
      apply List.append_nil
    refine ⟨⟨hsend hpc, h.no_nil, ⟨_, hlog.symm⟩, h.once, h.returned, hcounted⟩, hflag, hlog, ?_⟩
    intro hclosed'
    rw [State.setEnqueue, hclosed] at hclosed'
    obtain ⟨hquiet, hwaiting⟩ := h.quiet hclosed'
    refine ⟨?_, ?_⟩
    · intro c hc
      obtain hc | rfl := List.mem_or_eq_of_mem_set hc
      · apply hquiet c hc
      · apply Bool.eq_false_of_not_eq_true
        intro hsel
        rw [hselecting hsel] at hclosed'
        cases hclosed'
    · rw [MemoryQueue.size] at hwaiting ⊢
      rw [State.setEnqueue, hbuffer]
      apply hwaiting

/-- A step of a call of `Dequeue` that accounts for what it has received: it is the oldest
request, taken by a call that had none; what a call has taken it keeps, and the counter goes with
the calls that succeed.  In a closed queue only a call that waits goes on waiting or receives. -/
theorem Orderly.setDequeue (h : Orderly s) {i : ℕ} {call : DequeueCall α} {mq : MemoryQueue α}
    {pc : DequeuePc α} (hcall : s.dequeues[i]? = some call) (hpc : pc ≠ .panicked)
    (hclosed : mq.closed = s.mq.closed) (hchan : mq.queue.closed = s.mq.queue.closed)
    (hbuffer : s.mq.queue.buffer = pc.justReceived.toList ++ mq.queue.buffer)
    (hfresh : pc.justReceived ≠ none → call.pc.taken = none)
    (htaken : pc.taken = call.pc.taken.or pc.justReceived)
    (hcount : mq.dequeuedCount + call.pc.succeeded.toNat =
      s.mq.dequeuedCount + pc.succeeded.toNat)
    (hwaiting : s.mq.closed = true →
      pc.waiting.toNat + pc.justReceived.toList.length ≤ call.pc.waiting.toNat) :
  Orderly (s.setDequeue i call mq pc)
  := by
  have hbefore : s.takenBy i = call.pc.taken := by rw [State.takenBy, hcall, Option.bind_some]
  have hlog : s.accepted
      = (s.setDequeue i call mq pc).received.map Prod.snd ++ mq.queue.buffer := by
    rw [h.log, hbuffer, State.setDequeue, List.map_append, List.append_assoc]
    cases pc.justReceived <;> rfl
  refine ⟨⟨h.send_ok, ?_, ⟨_, hlog.symm⟩, ?_, ?_, ?_⟩, ?_, hlog, ?_⟩
  · intro c hc
    obtain hc | rfl := List.mem_or_eq_of_mem_set hc
    · apply h.no_nil c hc
    · apply hpc
  · rw [State.setDequeue, List.map_append]
    apply List.Nodup.append h.once
    · cases pc.justReceived <;> simp
    · -- a call that receives has received nothing before
      intro j hj hi
      obtain ⟨⟨j, r⟩, hmem, rfl⟩ := List.mem_map.mp hj
      obtain ⟨req, hreq, rfl⟩ : ∃ req, pc.justReceived = some req ∧ i = j := by
        simpa using hi
      rw [h.returned, hbefore, hfresh (by rw [hreq]; exact Option.some_ne_none req)] at hmem
      cases hmem
  · intro j r
    rw [takenBy_setDequeue hcall, State.setDequeue, List.mem_append, h.returned]
    by_cases hij : i = j
    · subst hij
      rw [if_pos rfl, hbefore, htaken]
      cases htaken' : call.pc.taken with
      | none => simp
      | some x =>
        have hnone : pc.justReceived = none := by
          by_contra hne
          rw [hfresh hne] at htaken'
          cases htaken'
        simp [hnone]
    · rw [if_neg hij]
      simp [hij]
  · have hsucceeded := succeeded_setDequeue mq pc hcall
    have hcounted := h.counted
    change mq.dequeuedCount = _
    omega
  · apply (hchan.trans h.flag).trans hclosed.symm
  · intro hclosed'
    rw [State.setDequeue, hclosed] at hclosed'
    obtain ⟨hquiet, hle⟩ := h.quiet hclosed'
    refine ⟨hquiet, ?_⟩
    have hmore := waiting_setDequeue mq pc hcall
    have hless := hwaiting hclosed'
    rw [MemoryQueue.size, hbuffer, List.length_append] at hle
    change _ ≤ mq.queue.buffer.length
    omega

/-- The steps of a call of `Dequeue`. -/
theorem Orderly.moveDequeue (h : Orderly s) {i : ℕ} {call : DequeueCall α} {cancelled : Bool}
    {choice : Choice} {mq : MemoryQueue α} {pc : DequeuePc α}
    (hcall : s.dequeues[i]? = some call)
    (hstep : s.mq.dequeueStep s.now cancelled call.pc choice = some (mq, pc)) :
  Orderly (s.setDequeue i call mq pc)
  := by
  obtain ⟨hwaiting, -, hreceive⟩ | ⟨req, hpc, rfl, rfl⟩ |
    ⟨rfl, hbefore, hafter, hpc, hwaiting⟩ := dequeueStep_cases hstep
  · have hbefore := taken_of_waiting hwaiting
    obtain ⟨hclosed, ⟨req, rfl, hbuffer, hchan, hcount⟩ | ⟨-, hempty, hchan, -⟩⟩ :=
      dequeueReceive_cases hreceive
    · apply h.setDequeue hcall
      · intro hpanicked
        cases hpanicked
      · apply hclosed
      · apply hchan
      · apply hbuffer
      · intro _
        apply hbefore
      · rw [hbefore]
        rfl
      · rw [(succeeded_of_taken hbefore).1, hcount]
        rfl
      · intro _
        rw [hwaiting]
        apply le_refl
    · -- a queue that was closed quietly has a request for each call that waits
      rw [h.flag] at hchan
      have hle := (h.quiet hchan).2
      rw [MemoryQueue.size, hempty, List.length_nil, Nat.le_zero, State.waiting,
        List.countP_eq_zero] at hle
      exact absurd hwaiting (hle call (List.mem_of_getElem? hcall))
  · apply h.setDequeue hcall
    · intro hpanicked
      cases hpanicked
    · rfl
    · rfl
    · rfl
    · intro hne
      exact absurd rfl hne
    · rw [hpc]
      rfl
    · rw [hpc]
      rfl
    · intro _
      apply Nat.zero_le
  · obtain ⟨hsucceeded, hnone⟩ := succeeded_of_taken hafter
    apply h.setDequeue hcall hpc rfl rfl
    · rw [hnone]
      rfl
    · intro hne
      exact absurd hnone hne
    · rw [hbefore, hafter, hnone]
      rfl
    · rw [hsucceeded, (succeeded_of_taken hbefore).1]
    · intro hclosed
      rw [hnone]
      apply Bool.toNat_le_toNat
      intro hw
      obtain hw | hopen := hwaiting hw
      · apply hw
      · rw [hopen] at hclosed
        cases hclosed

/-- A new call of `Enqueue`. -/
theorem Orderly.enqueue (h : Orderly s) (ctx : ℕ) (req : α) :
  Orderly { s with enqueues := s.enqueues ++ [⟨ctx, req, .check⟩] }
  := by
  refine ⟨⟨?_, h.no_nil, h.in_order, h.once, h.returned, h.counted⟩, h.flag, h.log, ?_⟩
  · intro call hcall
    obtain hcall | hcall := List.mem_append.mp hcall
    · apply h.send_ok call hcall
    · rw [List.mem_singleton.mp hcall]
      apply EnqueuePc.noConfusion
  · intro hclosed
    obtain ⟨hquiet, hle⟩ := h.quiet hclosed
    refine ⟨?_, hle⟩
    intro call hcall
    obtain hcall | hcall := List.mem_append.mp hcall
    · apply hquiet call hcall
    · rw [List.mem_singleton.mp hcall]
      rfl

/-- A new call of `Dequeue`. -/
theorem Orderly.dequeue (h : Orderly s) (ctx : ℕ) :
  Orderly { s with dequeues := s.dequeues ++ [⟨ctx, .check⟩] }
  := by
  have hsame : ∀ p : DequeueCall α → Bool, p ⟨ctx, .check⟩ = false →
      List.countP p (s.dequeues ++ [⟨ctx, .check⟩]) = s.dequeues.countP p := by
    intro p hp
    rw [List.countP_append, List.countP_singleton, hp]
    rfl
  refine ⟨⟨h.send_ok, ?_, h.in_order, h.once, ?_, ?_⟩, h.flag, h.log, ?_⟩
  · intro call hcall
    obtain hcall | hcall := List.mem_append.mp hcall
    · apply h.no_nil call hcall
    · rw [List.mem_singleton.mp hcall]
      intro hpanicked
      cases hpanicked
  · intro i req
    rw [h.returned, State.takenBy, State.takenBy, List.getElem?_append]
    by_cases hi : i < s.dequeues.length
    · rw [if_pos hi]
    · -- the new call has taken nothing
      rw [if_neg hi, List.getElem?_eq_none (Nat.le_of_not_lt hi)]
      cases i - s.dequeues.length with
      | zero => simp [DequeuePc.taken]
      | succ k => simp
  · apply h.counted.trans (hsame (fun call => call.pc.succeeded) rfl).symm
  · intro hclosed
    obtain ⟨hquiet, hle⟩ := h.quiet hclosed
    exact ⟨hquiet, (hsame (fun call => call.pc.waiting) rfl).trans_le hle⟩

theorem Orderly.close (h : Orderly s) (hquiet : s.mq.closed = false → Quiet s) :
  Orderly { s with mq := s.mq.close }
  := by
  rw [MemoryQueue.close]
  cases hclosed : s.mq.closed with
  | true => apply h
  | false =>
    exact ⟨⟨h.send_ok, h.no_nil, h.in_order, h.once, h.returned, h.counted⟩, rfl, h.log,
      fun _ => hquiet hclosed⟩

/-- A step that does not close the queue, or closes it quietly. -/
theorem orderly_step (s : State α) (a : Action α) (t : State α) (h : Orderly s)
    (hquiet : ClosesQuietly s a) (ht : machine.step s a = some t) :
  Orderly t
  := by
  cases a with
  | enqueue ctx req =>
    obtain rfl := Option.some.inj ht
    apply h.enqueue
  | dequeue ctx =>
    obtain rfl := Option.some.inj ht
    apply h.dequeue
  | close =>
    obtain rfl := Option.some.inj ht
    apply h.close hquiet
  | cancel ctx =>
    obtain rfl := Option.some.inj ht
    exact ⟨⟨h.send_ok, h.no_nil, h.in_order, h.once, h.returned, h.counted⟩, h.flag, h.log,
      h.quiet⟩
  | advance duration =>
    obtain rfl := Option.some.inj ht
    exact ⟨⟨h.send_ok, h.no_nil, h.in_order, h.once, h.returned, h.counted⟩, h.flag, h.log,
      h.quiet⟩
  | moveEnqueue i choice =>
    obtain ⟨call, hcall, ht⟩ := Option.bind_eq_some_iff.mp ht
    obtain ⟨⟨mq, pc⟩, hstep, rfl⟩ := Option.map_eq_some_iff.mp ht
    apply h.moveEnqueue hcall hstep
  | moveDequeue i choice =>
    obtain ⟨call, hcall, ht⟩ := Option.bind_eq_some_iff.mp ht
    obtain ⟨⟨mq, pc⟩, hstep, rfl⟩ := Option.map_eq_some_iff.mp ht
    apply h.moveDequeue hcall hstep

/-! ### Closing a queue in use -/

/-- A call of `Enqueue` that is about to use a closed channel panics. -/
theorem selecting_of_safe (h : Safe s) (hclosed : s.mq.queue.closed = true) :
  ∀ call ∈ s.enqueues, call.pc.selecting = false
  := by
  intro call hcall
  apply Bool.eq_false_of_not_eq_true
  intro hselecting
  obtain ⟨i, hi⟩ := List.mem_iff_getElem?.mp hcall
  have hpc : call.pc = .select := by
    cases hpc : call.pc with
    | select => rfl
    | check | count | drop | returned _ | panicked =>
      rw [hpc] at hselecting
      cases hselecting
  have hstep : machine.step s (.moveEnqueue i .send) =
      some (s.setEnqueue i call s.mq .panicked) := by
    simp [machine, step, hi, hpc, MemoryQueue.enqueueStep, Chan.send, hclosed]
  have hsound := (Machine.Persists.step h rfl hstep).holds
  obtain ⟨hlt, -⟩ := List.getElem?_eq_some_iff.mp hi
  apply hsound.send_ok _ (List.mem_set hlt _) rfl

theorem dequeueStep_receive {mq : MemoryQueue α} {now : ℤ} {cancelled : Bool} {pc : DequeuePc α}
    (h : pc.waiting = true) :
  mq.dequeueStep now cancelled pc .receive = mq.dequeueReceive
  := by
  cases pc with
  | select deadline => rfl
  | block deadline => rfl
  | check | count _ | returned _ | panicked => cases h

/-- A call of `Dequeue` that waits can receive what there is. -/
theorem exists_receive (h : 0 < s.waiting) :
  ∃ i call, s.dequeues[i]? = some call ∧ call.pc.waiting = true ∧
    ∀ mq pc, s.mq.dequeueReceive = some (mq, pc) →
      machine.step s (.moveDequeue i .receive) = some (s.setDequeue i call mq pc)
  := by
  obtain ⟨call, hcall, hwaiting⟩ := List.countP_pos_iff.mp h
  obtain ⟨i, hi⟩ := List.mem_iff_getElem?.mp hcall
  refine ⟨i, call, hi, hwaiting, ?_⟩
  intro mq pc hreceive
  simp [machine, step, hi, dequeueStep_receive hwaiting, hreceive]

/-- The calls of `Dequeue` that wait at a closed channel receive all there is in it, and one
more receives nil. -/
theorem waiting_le_of_safe {n : ℕ} (h : Safe s) (hclosed : s.mq.queue.closed = true)
    (hn : s.mq.queue.buffer.length = n) :
  s.waiting ≤ n
  := by
  induction n generalizing s with
  | zero =>
    rw [Nat.le_zero]
    by_contra hne
    obtain ⟨i, call, hcall, -, hstep⟩ := exists_receive (Nat.pos_of_ne_zero hne)
    have hreceive : s.mq.dequeueReceive =
        some ({ s.mq with dequeuedCount := s.mq.dequeuedCount + 1 }, .panicked) := by
      rw [MemoryQueue.dequeueReceive,
        Chan.zero_of_closed (List.length_eq_zero_iff.mp hn) hclosed]
    have hsound := (Machine.Persists.step h rfl (hstep _ _ hreceive)).holds
    obtain ⟨hlt, -⟩ := List.getElem?_eq_some_iff.mp hcall
    apply hsound.no_nil _ (List.mem_set hlt _) rfl
  | succ n ih =>
    obtain hnone | hsome := Nat.eq_zero_or_pos s.waiting
    · rw [hnone]
      apply Nat.zero_le
    · obtain ⟨i, call, hcall, hwaiting, hstep⟩ := exists_receive hsome
      obtain ⟨req, rest, hbuffer⟩ := List.exists_cons_of_length_eq_add_one hn
      obtain ⟨queue, hqueue⟩ := Chan.received_of_head? (by rw [hbuffer]; rfl)
      have hreceive : s.mq.dequeueReceive = some ({ s.mq with queue := queue }, .count req) := by
        rw [MemoryQueue.dequeueReceive, hqueue]
      have hrest : queue.buffer.length = n := by
        rw [Chan.buffer_of_received hqueue, List.length_cons] at hn
        apply Nat.succ.inj hn
      -- the state after the request has been received is safe as well
      have hnext := ih (h.step rfl (hstep _ _ hreceive))
        ((Chan.closed_of_received hqueue).trans hclosed) hrest
      have hfewer := waiting_setDequeue { s.mq with queue := queue } (.count req) hcall
      rw [hwaiting] at hfewer
      apply hfewer.symm.trans_le (Nat.succ_le_succ hnext)

/-- A step after which the property persists closes the queue quietly, if it closes it. -/
theorem closesQuietly_of_safe {a : Action α} (ht : machine.step s a = some t) (hsafe : Safe t) :
  ClosesQuietly s a
  := by
  cases a with
  | close =>
    intro hopen
    obtain rfl := Option.some.inj ht
    have hclose : s.mq.close = { s.mq with closed := true, queue := s.mq.queue.close } := by
      rw [MemoryQueue.close, hopen]
      rfl
    rw [hclose] at hsafe
    have hselecting := selecting_of_safe hsafe rfl
    have hwaiting := waiting_le_of_safe hsafe rfl rfl
    exact ⟨hselecting, hwaiting⟩
  | enqueue ctx req => trivial
  | dequeue ctx => trivial
  | cancel ctx => trivial
  | advance duration => trivial
  | moveEnqueue i choice => trivial
  | moveDequeue i choice => trivial

end

/-- In a run, the property holds, and goes on holding however the calls under way go on, exactly
when the queue is closed quietly: while no `Enqueue` is about to use the channel, and no more
calls of `Dequeue` than there are requests in the queue. -/
theorem sound_iff_closesQuietly (maxSize : ℕ) (timeout : ℤ) (actions : List (Action α)) :
  machine.Always Safe (init maxSize timeout) actions ↔
    machine.Meets ClosesQuietly (init maxSize timeout) actions
  := by
  apply Machine.always_persists_iff_meets (K := Orderly)
  · intro s h
    apply h.toSound
  · apply orderly_step
  · intro s a ha
    cases a with
    | moveEnqueue i choice => trivial
    | moveDequeue i choice => trivial
    | enqueue _ _ | dequeue _ | close | cancel _ | advance _ => cases ha
  · intro s a t _ ht hsafe
    apply closesQuietly_of_safe ht hsafe
  · apply orderly_init

/-- A queue that is closed after an `Enqueue` has checked the flag is sent to when it is closed;
and a `Dequeue` that has checked the flag receives nil from it, and counts it. -/
theorem unsound_after_close :
  (∃ t : State ℕ, machine.run (init 1 0)
      [.enqueue 0 7, .moveEnqueue 0 .next, .close, .moveEnqueue 0 .send] = some t ∧
      t.enqueues = [⟨0, 7, .panicked⟩] ∧ t.accepted = [] ∧ ¬ Sound t) ∧
    ∃ t : State ℕ, machine.run (init 1 1)
      [.dequeue 0, .moveDequeue 0 .next, .moveDequeue 0 .default, .close,
        .moveDequeue 0 .receive] = some t ∧
      t.dequeues = [⟨0, .panicked⟩] ∧ t.mq.dequeuedCount = 1 ∧ t.received = [] ∧ ¬ Sound t
  := by
  constructor
  · refine ⟨_, rfl, rfl, rfl, ?_⟩
    intro h
    apply h.send_ok _ List.mem_cons_self rfl
  · refine ⟨_, rfl, rfl, rfl, rfl, ?_⟩
    intro h
    apply h.no_nil _ List.mem_cons_self rfl

end Shutdown

end Queue

end VmProxyAuth
