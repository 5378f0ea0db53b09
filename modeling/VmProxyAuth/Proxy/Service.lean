import VmProxyAuth.Proxy.Forwarding

/-!
# The proxy service

Calls of `Forward` run concurrently over one request queue.  A call is given by where it
stands, and each of its atomic steps reads and changes what the calls share: the queue, the
states of the backends, the clock, and the bodies of the requests.  The machine interleaves
the steps of all calls with changes of the backends, cancellations, the passing of time and
the closing of the service.
-/

namespace VmProxyAuth

namespace Proxy

open Queue

/-- A pointer to a proxy request. -/
abbrev ReqId : Type := ℕ

/-- The service: its configuration, `url.Parse`, and the requests the pointers point to. -/
structure Service where
  urlParse : GoString → Except GoError Http.URL
  retries : ℤ
  backoff : ℤ
  queueEnabled : Bool
  maxSize : ℕ
  timeout : ℤ
  request : ReqId → ProxyRequest

/-- A response, with the request the upstream has answered with it. -/
structure Answer where
  request : ReqId
  response : ProxyResponse

/-- Why a request is put into the queue: no backend is healthy, the direct call has failed,
or the call with the request taken from the queue has failed. -/
inductive EnqueueReason where
  | noBackend
  | retry (err : GoError)
  | requeue (err : GoError)

/-- Why a request is forwarded: the call tries its own request before it queues it, it has taken a
request from the queue, or it returns whatever comes of its own request. -/
inductive ForwardReason where
  | first
  | taken (startTime : ℤ) (req : ReqId)
  | last

/-- The request that is forwarded, by a call made with a request. -/
def ForwardReason.req (own : ReqId) : ForwardReason → ReqId
  | .taken _ req => req
  | _ => own

/-- Where a call of `Forward` stands. -/
inductive Pc where
  | start
  | check
  | sizeCheck (err : GoError)
  | enqueue (reason : EnqueueReason) (req : ReqId) (pc : EnqueuePc)
  | poll (startTime : ℤ)
  | pollHealthy (startTime : ℤ)
  | wait (startTime wake : ℤ)
  | dequeue (startTime : ℤ) (pc : DequeuePc ReqId)
  | forward (reason : ForwardReason) (pc : ForwardPc)
  | requeueCheck (startTime : ℤ) (req : ReqId) (err : GoError)
  | returned (result : Except GoError Answer)
  | panicked

/-- A call of `Forward`: the request it was made with, where it stands, and whether its
context is done. -/
structure Call where
  req : ReqId
  pc : Pc
  cancelled : Bool

/-- What the calls share. -/
structure Shared where
  queue : MemoryQueue ReqId
  backends : List BackendState
  closed : Bool
  now : ℤ
  traces : ReqId → Trace

/-- `DefaultQueueCheckInterval`. -/
def queueCheckInterval : ℤ := 100000000

/-- `hasHealthyBackends`. -/
def Shared.hasHealthyBackends (sh : Shared) : Bool :=
  sh.backends.any (fun state => decide (state = .healthy))

/-- A call of `forwardToBackendDirect` begins. -/
def beginForward (reason : ForwardReason) : Pc := .forward reason (.loop 0 none)

/-- Where a call stands after a step of `Enqueue`. -/
def afterEnqueue (now : ℤ) (reason : EnqueueReason) (req : ReqId) : EnqueuePc → Pc
  | .returned (.ok ()) =>
    match reason with
    | .requeue err => .returned (.error err)
    | _ => .poll now
  | .returned (.error queueErr) =>
    match reason with
    | .noBackend => .returned (.error (.wrapf "failed to queue request: %w" [] queueErr))
    | .retry err =>
      .returned (.error (.wrapf "direct processing failed and queue full: %w" [] err))
    | .requeue err => .returned (.error err)
  | .panicked => .panicked
  | pc => .enqueue reason req pc

/-- Where a call stands after a step of `Dequeue`. -/
def afterDequeue (startTime : ℤ) : DequeuePc ReqId → Pc
  | .returned (.ok req) => beginForward (.taken startTime req)
  | .returned (.error err) =>
    if err = .app AppError.queueEmpty then beginForward .last
    else .returned (.error (.wrapf "failed to dequeue request: %w" [] err))
  | .panicked => .panicked
  | pc => .dequeue startTime pc

/-- Where a call stands when `forwardToBackendDirect` has given an error. -/
def afterFailure (err : GoError) : ForwardReason → Pc
  | .first => .sizeCheck err
  | .taken startTime req => .requeueCheck startTime req err
  | .last => .returned (.error err)

/-- Where a call made with a request stands after a step of `forwardToBackendDirect`. -/
def afterForward (own : ReqId) (reason : ForwardReason) : ForwardPc → Pc
  | .ended (.returned (.ok response)) => .returned (.ok ⟨reason.req own, response⟩)
  | .ended (.returned (.error err)) => afterFailure err reason
  | .ended .panicked => .panicked
  | pc => .forward reason pc

/-- A step of a call that changes nothing the calls share. -/
def localStep (S : Service) (sh : Shared) (call : Call) (choice : Choice) : Option Pc :=
  match call.pc, choice with
  | .start, .next =>
    some (if sh.closed then .returned (.error (.errorf "service is closed" []))
      else if S.queueEnabled then .check
      else beginForward .last)
  | .check, .next =>
    some (if sh.hasHealthyBackends then beginForward .first
      else .enqueue .noBackend call.req .check)
  | .sizeCheck err, .next =>
    some (if sh.queue.size < S.maxSize then .enqueue (.retry err) call.req .check
      else .returned (.error err))
  | .poll startTime, .next =>
    some (if sh.now - startTime < S.timeout then .pollHealthy startTime
      else .returned (.error (.errorf "request timed out in queue after %v"
        [.duration S.timeout])))
  | .pollHealthy startTime, .next =>
    some (if sh.hasHealthyBackends then .dequeue startTime .check
      else .wait startTime (sh.now + queueCheckInterval))
  | .wait _ _, .ctxDone =>
    if call.cancelled then some (.returned (.error (.library "context"))) else none
  | .wait startTime wake, .elapse => if wake ≤ sh.now then some (.poll startTime) else none
  | .requeueCheck startTime req err, .next =>
    some (if S.maxSize ≤ sh.queue.size ∨ S.timeout ≤ sh.now - startTime then
        .returned (.error err)
      else .enqueue (.requeue err) req .check)
  | _, _ => none

/-- A step of a call of `Forward`: what it does to what is shared, and where the call then
stands. -/
def callStep (S : Service) (sh : Shared) (call : Call) (m : Move) : Option (Shared × Pc) :=
  match call.pc, m with
  | .enqueue reason req pc, .choose choice =>
    (sh.queue.enqueueStep call.cancelled req pc choice).map
      (fun r => ({ sh with queue := r.1 }, afterEnqueue sh.now reason req r.2))
  | .dequeue startTime pc, .choose choice =>
    (sh.queue.dequeueStep sh.now call.cancelled pc choice).map
      (fun r => ({ sh with queue := r.1 }, afterDequeue startTime r.2))
  | .forward reason pc, m =>
    let req := reason.req call.req
    (forwardStep S.urlParse S.retries S.backoff (S.request req) sh.now call.cancelled
      (sh.traces req) pc m).map
      (fun r => ({ sh with traces := Function.update sh.traces req r.1 },
        afterForward call.req reason r.2))
  | _, .choose choice => (localStep S sh call choice).map (fun pc => (sh, pc))
  | _, _ => none

/-- What a step of a call can be: one that changes nothing shared, or one of `Enqueue`, `Dequeue`
or `forwardToBackendDirect`. -/
inductive StepKind (S : Service) (sh : Shared) (call : Call) : Move → Shared → Pc → Prop where
  | local {choice : Choice} {pc : Pc} (h : localStep S sh call choice = some pc) :
    StepKind S sh call (.choose choice) sh pc
  | enqueue {reason : EnqueueReason} {req : ReqId} {epc epc' : EnqueuePc} {choice : Choice}
      {queue : MemoryQueue ReqId} (hpc : call.pc = .enqueue reason req epc)
      (h : sh.queue.enqueueStep call.cancelled req epc choice = some (queue, epc')) :
    StepKind S sh call (.choose choice) { sh with queue := queue }
      (afterEnqueue sh.now reason req epc')
  | dequeue {startTime : ℤ} {dpc dpc' : DequeuePc ReqId} {choice : Choice}
      {queue : MemoryQueue ReqId} (hpc : call.pc = .dequeue startTime dpc)
      (h : sh.queue.dequeueStep sh.now call.cancelled dpc choice = some (queue, dpc')) :
    StepKind S sh call (.choose choice) { sh with queue := queue } (afterDequeue startTime dpc')
  | forward {reason : ForwardReason} {fpc fpc' : ForwardPc} {m : Move} {t : Trace}
      (hpc : call.pc = .forward reason fpc)
      (h : forwardStep S.urlParse S.retries S.backoff (S.request (reason.req call.req)) sh.now
        call.cancelled (sh.traces (reason.req call.req)) fpc m = some (t, fpc')) :
    StepKind S sh call m
      { sh with traces := Function.update sh.traces (reason.req call.req) t }
      (afterForward call.req reason fpc')

theorem stepKind_of_callStep {S : Service} {sh sh' : Shared} {call : Call} {m : Move} {pc : Pc}
    (h : callStep S sh call m = some (sh', pc)) :
  StepKind S sh call m sh' pc
  := by
  rw [callStep.eq_def] at h
  split at h
  · rename_i hpc
    obtain ⟨r, hr, ⟨⟩⟩ := Option.map_eq_some_iff.mp h
    apply StepKind.enqueue hpc hr
  · rename_i hpc
    obtain ⟨r, hr, ⟨⟩⟩ := Option.map_eq_some_iff.mp h
    apply StepKind.dequeue hpc hr
  · rename_i hpc
    obtain ⟨r, hr, ⟨⟩⟩ := Option.map_eq_some_iff.mp h
    apply StepKind.forward hpc hr
  · obtain ⟨next, hnext, ⟨⟩⟩ := Option.map_eq_some_iff.mp h
    apply StepKind.local hnext
  · cases h

/-! ### The machine -/

/-- The calls made so far, and what they share. -/
structure State where
  shared : Shared
  calls : ℕ → Option Call

/-- What can happen: a call is made, takes a step or has its context cancelled; the states
of the backends change, time passes, or the service is closed. -/
inductive Action where
  | call (c : ℕ) (req : ReqId)
  | move (c : ℕ) (m : Move)
  | cancel (c : ℕ)
  | setBackends (backends : List BackendState)
  | tick (d : ℕ)
  | close

/-- The state in which no call has been made. -/
def State.init (S : Service) (backends : List BackendState) (now : ℤ) : State where
  shared :=
    { queue := MemoryQueue.new S.maxSize S.timeout
      backends := backends
      closed := false
      now := now
      traces := fun req => Trace.start (S.request req).originalRequest.body }
  calls := fun _ => none

/-- The state with a call changed. -/
def State.setCall (s : State) (c : ℕ) (call : Call) : State :=
  { s with calls := Function.update s.calls c (some call) }

/-- One step of the service. -/
def step (S : Service) (s : State) : Action → Option State
  | .call c req => if (s.calls c).isNone then some (s.setCall c ⟨req, .start, false⟩) else none
  | .move c m =>
    (s.calls c).bind (fun call =>
      (callStep S s.shared call m).map (fun r =>
        { s with shared := r.1 }.setCall c { call with pc := r.2 }))
  | .cancel c => (s.calls c).map (fun call => s.setCall c { call with cancelled := true })
  | .setBackends backends => some { s with shared := { s.shared with backends := backends } }
  | .tick d => some { s with shared := { s.shared with now := s.shared.now + d } }
  | .close =>
    some { s with
           shared := { s.shared with
                       closed := true
                       queue := if s.shared.closed then s.shared.queue else s.shared.queue.close } }

/-- The machine of the service. -/
def machine (S : Service) : Machine State Action := ⟨step S⟩

/-- What a step does to a call: the call is new, it has taken a step, its context has been
cancelled, or it is as before. -/
theorem step_calls {S : Service} {s t : State} {a : Action} (h : step S s a = some t) {c : ℕ}
    {call : Call} (hcall : t.calls c = some call) :
  (∃ req, a = .call c req ∧ call = ⟨req, .start, false⟩) ∨
    (∃ m before sh, a = .move c m ∧ s.calls c = some before ∧
      callStep S s.shared before m = some (sh, call.pc) ∧ call.req = before.req) ∨
    ∃ before, s.calls c = some before ∧ call.req = before.req ∧ call.pc = before.pc
  := by
  have hupdate : ∀ {c' : ℕ} {new : Call},
      Function.update s.calls c' (some new) c = some call →
      c = c' ∧ new = call ∨ s.calls c = some call := by
    intro c' new hnew
    by_cases hc : c = c'
    · rw [hc, Function.update_self] at hnew
      apply Or.inl ⟨hc, Option.some.inj hnew⟩
    · rw [Function.update_of_ne hc] at hnew
      apply Or.inr hnew
  have hkept : s.calls c = some call →
      ∃ before, s.calls c = some before ∧ call.req = before.req ∧ call.pc = before.pc :=
    fun hsame => ⟨call, hsame, rfl, rfl⟩
  cases a with
  | call c' req =>
    rw [step] at h
    split at h
    · cases h
      rcases hupdate hcall with ⟨rfl, hnew⟩ | hsame
      · apply Or.inl ⟨req, rfl, hnew.symm⟩
      · apply Or.inr (Or.inr (hkept hsame))
    · cases h
  | move c' m =>
    obtain ⟨before, hbefore, hmove⟩ := Option.bind_eq_some_iff.mp h
    obtain ⟨⟨sh, pc⟩, hstep, rfl⟩ := Option.map_eq_some_iff.mp hmove
    rcases hupdate hcall with ⟨rfl, hnew⟩ | hsame
    · right
      left
      use m, before, sh, rfl, hbefore
      rw [← hnew]
      use hstep
    · apply Or.inr (Or.inr (hkept hsame))
  | cancel c' =>
    obtain ⟨before, hbefore, rfl⟩ := Option.map_eq_some_iff.mp h
    rcases hupdate hcall with ⟨rfl, hnew⟩ | hsame
    · right
      right
      use before, hbefore
      rw [← hnew]
      exact ⟨rfl, rfl⟩
    · apply Or.inr (Or.inr (hkept hsame))
  | setBackends backends =>
    cases h
    apply Or.inr (Or.inr (hkept hcall))
  | tick d =>
    cases h
    apply Or.inr (Or.inr (hkept hcall))
  | close =>
    cases h
    apply Or.inr (Or.inr (hkept hcall))

end Proxy

end VmProxyAuth
