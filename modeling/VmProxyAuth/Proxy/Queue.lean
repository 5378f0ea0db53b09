import VmProxyAuth.Domain
import VmProxyAuth.Lib.Channel

/-!
# The request queue

`MemoryQueue` is a buffered channel with a flag and counters.  `Enqueue` and `Dequeue` are
given by their atomic steps: the check of the flag, the choice of a ready case of a
`select`, and the update of a counter.  Between the steps of one call, other calls may take
steps.
-/

namespace VmProxyAuth

namespace Queue

/-- `MemoryQueue`, over requests of type `α`. -/
structure MemoryQueue (α : Type) where
  queue : Chan α
  timeout : ℤ
  closed : Bool
  enqueuedCount : ℕ
  dequeuedCount : ℕ
  droppedCount : ℕ

/-- How a step is chosen where several are possible: the next statement, or a case of a
`select`. -/
inductive Choice where
  | next
  | send
  | receive
  | ctxDone
  | elapse
  | default
  deriving DecidableEq, Repr

/-- Where a call of `Enqueue` stands. -/
inductive EnqueuePc where
  | check
  | select
  | count
  | drop
  | returned (result : Except GoError Unit)
  | panicked

/-- Where a call of `Dequeue` stands; a deadline is that of its timer. -/
inductive DequeuePc (α : Type) where
  | check
  | select (deadline : Option ℤ)
  | block (deadline : Option ℤ)
  | count (req : α)
  | returned (result : Except GoError α)
  | panicked

namespace MemoryQueue

variable {α : Type}

/-- `NewMemoryQueue`. -/
def new (maxSize : ℕ) (timeout : ℤ) : MemoryQueue α := ⟨Chan.make maxSize, timeout, false, 0, 0, 0⟩

/-- `Size`. -/
def size (mq : MemoryQueue α) : ℕ := mq.queue.buffer.length

/-- `Close`. -/
def close (mq : MemoryQueue α) : MemoryQueue α :=
  if mq.closed then mq else { mq with closed := true, queue := mq.queue.close }

/-- A step of `Enqueue(ctx, req)`, where `cancelled` tells whether `ctx` is done. -/
def enqueueStep (mq : MemoryQueue α) (cancelled : Bool) (req : α) :
    EnqueuePc → Choice → Option (MemoryQueue α × EnqueuePc)
  | .check, .next =>
    some (mq, if mq.closed then .returned (.error (.app AppError.queueClosed)) else .select)
  | .select, .send =>
    match mq.queue.send req with
    | .sent queue => some ({ mq with queue := queue }, .count)
    | .panics => some (mq, .panicked)
    | .blocks => none
  | .select, .ctxDone =>
    if cancelled then some (mq, .returned (.error (.library "context"))) else none
  | .select, .default =>
    if mq.queue.sendBlocks && !cancelled then some (mq, .drop) else none
  | .count, .next =>
    some ({ mq with enqueuedCount := mq.enqueuedCount + 1 }, .returned (.ok ()))
  | .drop, .next =>
    some ({ mq with droppedCount := mq.droppedCount + 1 },
      .returned (.error (.app AppError.queueFull)))
  | _, _ => none

/-- Whether a timer has fired. -/
def fired (now : ℤ) (deadline : Option ℤ) : Bool := deadline.any (fun d => decide (d ≤ now))

/-- Receiving in `Dequeue`.  From a closed queue without requests it gives a nil pointer,
which is dereferenced after the counter has been updated. -/
def dequeueReceive (mq : MemoryQueue α) : Option (MemoryQueue α × DequeuePc α) :=
  match mq.queue.receive with
  | .received req queue => some ({ mq with queue := queue }, .count req)
  | .zero => some ({ mq with dequeuedCount := mq.dequeuedCount + 1 }, .panicked)
  | .blocks => none

/-- A step of `Dequeue(ctx)` at the time `now`. -/
def dequeueStep (mq : MemoryQueue α) (now : ℤ) (cancelled : Bool) :
    DequeuePc α → Choice → Option (MemoryQueue α × DequeuePc α)
  | .check, .next =>
    some (mq,
      if mq.closed then .returned (.error (.app AppError.queueClosed))
      else .select (if 0 < mq.timeout then some (now + mq.timeout) else none))
  | .select _, .receive => mq.dequeueReceive
  | .select _, .ctxDone =>
    if cancelled then some (mq, .returned (.error (.library "context"))) else none
  | .select deadline, .elapse =>
    if fired now deadline then some (mq, .returned (.error (.app AppError.queueTimeout))) else none
  | .select deadline, .default =>
    if mq.queue.receiveBlocks && !cancelled && !fired now deadline then
      some (mq,
        if deadline = none then .returned (.error (.app AppError.queueEmpty))
        else .block deadline)
    else none
  | .block _, .receive => mq.dequeueReceive
  | .block _, .ctxDone =>
    if cancelled then some (mq, .returned (.error (.library "context"))) else none
  | .block deadline, .elapse =>
    if fired now deadline then some (mq, .returned (.error (.app AppError.queueTimeout))) else none
  | .count req, .next =>
    some ({ mq with dequeuedCount := mq.dequeuedCount + 1 }, .returned (.ok req))
  | _, _ => none

end MemoryQueue

/-- The request a call of `Dequeue` has taken from the queue, if any. -/
def DequeuePc.taken {α : Type} : DequeuePc α → Option α
  | .count req => some req
  | .returned (.ok req) => some req
  | _ => none

/-- The call is about to use the channel. -/
def DequeuePc.waiting {α : Type} : DequeuePc α → Bool
  | .select _ => true
  | .block _ => true
  | _ => false

/-- What receiving does in `Dequeue`. -/
theorem dequeueReceive_cases {α : Type} {mq mq' : MemoryQueue α} {pc' : DequeuePc α}
    (h : mq.dequeueReceive = some (mq', pc')) :
  mq'.closed = mq.closed ∧
    ((∃ req, pc' = .count req ∧ mq.queue.buffer = req :: mq'.queue.buffer ∧
        mq'.queue.closed = mq.queue.closed ∧ mq'.dequeuedCount = mq.dequeuedCount) ∨
      (pc' = .panicked ∧ mq.queue.buffer = [] ∧ mq.queue.closed = true ∧ mq'.queue = mq.queue))
  := by
  rw [MemoryQueue.dequeueReceive] at h
  split at h
  · rename_i req queue hreceived
    cases h
    exact ⟨rfl, Or.inl ⟨req, rfl, Chan.buffer_of_received hreceived,
      Chan.closed_of_received hreceived, rfl⟩⟩
  · rename_i hzero
    cases h
    exact ⟨rfl, Or.inr ⟨rfl, Chan.buffer_of_zero hzero, Chan.closed_of_zero hzero, rfl⟩⟩
  · cases h

/-- What a step of `Dequeue` does: it receives a request or nil, counts the request it received,
or leaves the queue and the counter as they are. -/
theorem dequeueStep_cases {α : Type} {mq mq' : MemoryQueue α} {now : ℤ} {cancelled : Bool}
    {pc pc' : DequeuePc α} {choice : Choice}
    (h : mq.dequeueStep now cancelled pc choice = some (mq', pc')) :
  (pc.waiting = true ∧ choice = .receive ∧ mq.dequeueReceive = some (mq', pc')) ∨
    (∃ req, pc = .count req ∧ pc' = .returned (.ok req) ∧
      mq' = { mq with dequeuedCount := mq.dequeuedCount + 1 }) ∨
    (mq' = mq ∧ pc.taken = none ∧ pc'.taken = none ∧ pc' ≠ .panicked ∧
      (pc'.waiting = true → pc.waiting = true ∨ mq.closed = false))
  := by
  rw [MemoryQueue.dequeueStep.eq_def] at h
  split at h
  · cases h
    cases mq.closed with
    | true => simp [DequeuePc.taken, DequeuePc.waiting]
    | false => simp [DequeuePc.taken]
  · exact Or.inl ⟨rfl, rfl, h⟩
  · obtain ⟨-, h⟩ := Option.ite_none_right_eq_some.mp h
    cases h
    simp [DequeuePc.taken, DequeuePc.waiting]
  · obtain ⟨-, h⟩ := Option.ite_none_right_eq_some.mp h
    cases h
    simp [DequeuePc.taken, DequeuePc.waiting]
  · rename_i deadline
    obtain ⟨-, h⟩ := Option.ite_none_right_eq_some.mp h
    cases h
    cases deadline with
    | none => simp [DequeuePc.taken, DequeuePc.waiting]
    | some d => simp [DequeuePc.taken, DequeuePc.waiting]
  · exact Or.inl ⟨rfl, rfl, h⟩
  · obtain ⟨-, h⟩ := Option.ite_none_right_eq_some.mp h
    cases h
    simp [DequeuePc.taken, DequeuePc.waiting]
  · obtain ⟨-, h⟩ := Option.ite_none_right_eq_some.mp h
    cases h
    simp [DequeuePc.taken, DequeuePc.waiting]
  · cases h
    exact Or.inr (Or.inl ⟨_, rfl, rfl, rfl⟩)
  · cases h

/-- A request taken by a step of `Dequeue` was taken before, or is the oldest one in the
queue and the step is a receive. -/
theorem taken_dequeueStep {α : Type} {mq mq' : MemoryQueue α} {now : ℤ} {cancelled : Bool}
    {pc pc' : DequeuePc α} {choice : Choice} {req : α}
    (h : mq.dequeueStep now cancelled pc choice = some (mq', pc'))
    (htaken : pc'.taken = some req) :
  pc.taken = some req ∨ choice = .receive ∧ mq.queue.buffer.head? = some req
  := by
  obtain ⟨-, hchoice, hreceive⟩ | ⟨req', rfl, rfl, -⟩ | ⟨-, -, hnone, -⟩ := dequeueStep_cases h
  · obtain ⟨-, ⟨req', rfl, hbuffer, -⟩ | ⟨rfl, -⟩⟩ := dequeueReceive_cases hreceive
    · right
      use hchoice
      rw [hbuffer]
      apply htaken
    · cases htaken
  · left
    apply htaken
  · rw [hnone] at htaken
    cases htaken

end Queue

end VmProxyAuth
