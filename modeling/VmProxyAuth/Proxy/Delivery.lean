import VmProxyAuth.Proxy.Service

/-!
# Delivery of responses

A call that waits for a healthy backend takes the oldest request from the queue, whoever
has put it there, and returns the response to it.  As long as every call takes only its
own request from the queue, every call returns the response to its own request
(`delivered_of_takesOwn`); a call that takes another one returns the response to that one
if the upstream answers (`foreign_response_returned`).
-/

namespace VmProxyAuth

namespace Proxy

open Queue

/-- Every call that has returned a response has returned the upstream's answer to its own
request. -/
def Delivered (s : State) : Prop :=
  ∀ c call answer, s.calls c = some call → call.pc = .returned (.ok answer) →
    answer.request = call.req

/-- A receive from the queue is made by the call whose request is the oldest one. -/
def takesOwn (s : State) : Action → Bool
  | .move c (.choose .receive) =>
    match s.calls c, s.shared.queue.queue.buffer.head? with
    | some call, some req => decide (req = call.req)
    | _, _ => true
  | _ => true

/-- The request a call is about to return the response to, or has returned the response
to, other than its own by construction. -/
def Pc.holds : Pc → Option ReqId
  | .dequeue _ pc => pc.taken
  | .forward (.taken _ req) _ => some req
  | .returned (.ok answer) => some answer.request
  | _ => none

/-- Every request held by a call is its own. -/
def HoldsOwn (s : State) : Prop :=
  ∀ c call req, s.calls c = some call → call.pc.holds = some req → req = call.req

theorem holds_localStep {S : Service} {sh : Shared} {call : Call} {choice : Choice} {pc : Pc}
    (h : localStep S sh call choice = some pc) :
  pc.holds = none
  := by
  have hite : ∀ (p : Prop) [Decidable p] {x y : Pc}, x.holds = none → y.holds = none →
      (if p then x else y).holds = none := by
    intro p _ x y hx hy
    split
    · apply hx
    · apply hy
  rw [localStep.eq_def] at h
  split at h
  · cases h
    apply hite _ rfl (hite _ rfl rfl)
  · cases h
    apply hite _ rfl rfl
  · cases h
    apply hite _ rfl rfl
  · cases h
    apply hite _ rfl rfl
  · cases h
    apply hite _ rfl rfl
  · obtain ⟨-, ⟨⟩⟩ := Option.ite_none_right_eq_some.mp h
    rfl
  · obtain ⟨-, ⟨⟩⟩ := Option.ite_none_right_eq_some.mp h
    rfl
  · cases h
    apply hite _ rfl rfl
  · cases h

theorem holds_afterEnqueue (now : ℤ) (reason : EnqueueReason) (req : ReqId) (pc : EnqueuePc) :
  (afterEnqueue now reason req pc).holds = none
  := by
  cases pc with
  | returned result =>
    rcases result with err | ⟨⟩
    · cases reason with
      | noBackend => rfl
      | retry err => rfl
      | requeue err => rfl
    · cases reason with
      | noBackend => rfl
      | retry err => rfl
      | requeue err => rfl
  | _ => rfl

theorem holds_afterDequeue {startTime : ℤ} {pc : DequeuePc ReqId} {req : ReqId}
    (h : (afterDequeue startTime pc).holds = some req) :
  pc.taken = some req
  := by
  cases pc with
  | returned result =>
    rcases result with err | req'
    · rw [afterDequeue] at h
      split at h
      · cases h
      · cases h
    · apply h
  | panicked => cases h
  | _ => apply h

theorem holds_forward (reason : ForwardReason) (pc pc' : ForwardPc) :
  (Pc.forward reason pc).holds = (Pc.forward reason pc').holds
  := by
  cases reason with
  | first => rfl
  | taken startTime req => rfl
  | last => rfl

theorem holds_afterForward {own req : ReqId} {reason : ForwardReason} {pc' : ForwardPc}
    (pc : ForwardPc) (h : (afterForward own reason pc').holds = some req) :
  (Pc.forward reason pc).holds = some req ∨ req = own
  := by
  cases pc' with
  | ended outcome =>
    rcases outcome with (err | response) | _
    · cases reason with
      | first => cases h
      | taken startTime req => cases h
      | last => cases h
    · obtain rfl : reason.req own = req := Option.some.inj h
      cases reason with
      | first => apply Or.inr rfl
      | taken startTime req => apply Or.inl rfl
      | last => apply Or.inr rfl
    · cases h
  | _ =>
    left
    rw [holds_forward reason pc]
    apply h

/-- A request held after a step was held before, is the call's own, or is the oldest one in
the queue, which the step receives. -/
theorem holds_callStep {S : Service} {sh sh' : Shared} {call : Call} {m : Move} {pc : Pc}
    {req : ReqId} (h : callStep S sh call m = some (sh', pc)) (hholds : pc.holds = some req) :
  call.pc.holds = some req ∨ req = call.req ∨
    m = .choose .receive ∧ sh.queue.queue.buffer.head? = some req
  := by
  cases stepKind_of_callStep h with
  | «local» hlocal =>
    rw [holds_localStep hlocal] at hholds
    cases hholds
  | enqueue hpc hstep =>
    rw [holds_afterEnqueue] at hholds
    cases hholds
  | dequeue hpc hstep =>
    obtain htaken | ⟨rfl, hhead⟩ := taken_dequeueStep hstep (holds_afterDequeue hholds)
    · left
      rw [hpc]
      apply htaken
    · right
      right
      use rfl
  | @forward reason fpc fpc' m t hpc hstep =>
    rw [hpc]
    obtain hheld | hown := holds_afterForward fpc hholds
    · apply Or.inl hheld
    · apply Or.inr (Or.inl hown)

/-- A step in which a call only takes its own request keeps the requests held own. -/
theorem holdsOwn_step {S : Service} {s t : State} {a : Action} (hs : HoldsOwn s)
    (ha : takesOwn s a) (h : step S s a = some t) :
  HoldsOwn t
  := by
  intro c call req hcall hholds
  rcases step_calls h hcall with ⟨req', -, rfl⟩ | ⟨m, before, sh, rfl, hbefore, hstep, hreq⟩ |
    ⟨before, hbefore, hreq, hpc⟩
  · cases hholds
  · rw [hreq]
    rcases holds_callStep hstep hholds with hheld | hown | ⟨rfl, hhead⟩
    · apply hs c before req hbefore hheld
    · apply hown
    · simpa [takesOwn, hbefore, hhead] using ha
  · rw [hreq]
    rw [hpc] at hholds
    apply hs c before req hbefore hholds

/-- In every run in which calls only take their own request from the queue, every response
returned is the upstream's answer to the request the call was made with. -/
theorem delivered_of_takesOwn
    (S : Service) (backends : List BackendState) (now : ℤ) (actions : List Action)
    (h : (machine S).Meets (fun s a => takesOwn s a) (State.init S backends now) actions) :
  (machine S).Always Delivered (State.init S backends now) actions
  := by
  have hinit : HoldsOwn (State.init S backends now) := by
    intro c call req hcall
    cases hcall
  apply (h.always (fun s a t => holdsOwn_step) hinit).imp
  intro s hs c call answer hcall hpc
  apply hs c call answer.request hcall
  rw [hpc]
  rfl

theorem pc_setCall (s : State) (c : ℕ) (call : Call) :
  ((s.setCall c call).calls c).map Call.pc = some call.pc
  := by
  have hself : (s.setCall c call).calls c = some call := Function.update_self c _ s.calls
  rw [hself, Option.map_some]

/-- A run that begins with a step of a call. -/
theorem exists_run_move {S : Service} {s : State} {c : ℕ} {call : Call} {m : Move} {sh : Shared}
    {pc : Pc} {actions : List Action} {P : State → Prop} (hcall : s.calls c = some call)
    (hstep : callStep S s.shared call m = some (sh, pc))
    (h : ∃ t, (machine S).run ({ s with shared := sh }.setCall c { call with pc := pc }) actions
      = some t ∧ P t) :
  ∃ t, (machine S).run s (.move c m :: actions) = some t ∧ P t
  := by
  obtain ⟨t, hrun, ht⟩ := h
  use t
  constructor
  · rw [Machine.run_cons]
    use { s with shared := sh }.setCall c { call with pc := pc }
    constructor
    · apply Option.bind_eq_some_iff.mpr
      use call, hcall
      rw [hstep]
      rfl
    · apply hrun
  · apply ht

/-- A call that takes another request returns the answer to that one, if the upstream
answers the first attempt. -/
theorem foreign_response_returned {S : Service} {s : State} {c : ℕ} {call : Call} {startTime : ℤ}
    {deadline : Option ℤ} {req : ReqId} {selection : Except GoError GoString} {consumed : ℕ}
    {backendURL : GoString} {reply : Reply} {t₁ t₂ : Trace} {response : ProxyResponse}
    (hcall : s.calls c = some call) (hpc : call.pc = .dequeue startTime (.select deadline))
    (hhead : s.shared.queue.queue.buffer.head? = some req) (hretries : 0 < S.retries.toNat)
    (hissue : issueRequest S.urlParse (S.request req) selection consumed (s.shared.traces req)
      = (.ok backendURL, t₁))
    (hreply : processReply backendURL reply t₁ = (.ok response, t₂)) :
  ∃ t, (machine S).run s [.move c (.choose .receive), .move c (.choose .next),
      .move c (.choose .next), .move c (.send selection consumed), .move c (.reply reply)]
        = some t ∧
    (t.calls c).map Call.pc = some (.returned (.ok ⟨req, response⟩))
  := by
  obtain ⟨queue, hreceive⟩ := Chan.received_of_head? hhead
  have hfirst : ∀ now, loopNext S.retries S.backoff now 0 none = .send 0 := by
    intro now
    rw [loopNext, if_pos hretries, if_pos rfl]
  apply exists_run_move hcall
  · rw [callStep.eq_def, hpc]
    dsimp only
    rw [MemoryQueue.dequeueStep, MemoryQueue.dequeueReceive, hreceive]
    rfl
  apply exists_run_move (Function.update_self _ _ _) rfl
  apply exists_run_move (Function.update_self _ _ _)
  · dsimp only [State.setCall, afterDequeue, beginForward, callStep, forwardStep]
    rw [hfirst]
    rfl
  apply exists_run_move (Function.update_self _ _ _)
  · dsimp only [State.setCall, afterForward, callStep, forwardStep, ForwardReason.req]
    rw [Function.update_self, hissue]
    rfl
  apply exists_run_move (Function.update_self _ _ _)
  · dsimp only [State.setCall, afterIssue, afterForward, callStep, forwardStep,
      ForwardReason.req]
    rw [Function.update_self, hreply]
    rfl
  apply Exists.intro _ ⟨rfl, pc_setCall _ c _⟩

/-! ### Two calls -/

/-- A request without parameters, for every pointer. -/
def plainRequest (_ : ReqId) : ProxyRequest where
  user := ⟨str "alice", [], [], [], [], false, 0⟩
  originalRequest := ⟨str "GET", ⟨[], [], str "/api/v1/labels", []⟩, ∅, Http.Body.received []⟩
  filteredQuery := []
  targetTenant := []

/-- A service with two attempts and a queue of ten requests. -/
def smallService : Service where
  urlParse := oneHost
  retries := 2
  backoff := Clock.second
  queueEnabled := true
  maxSize := 10
  timeout := 5 * Clock.second
  request := plainRequest

/-- A request is sent to the backend. -/
def sends (c : ℕ) : Action := .move c (.send (.ok (str "http://vm:8481")) 0)

/-- The backend answers. -/
def answers (c : ℕ) : Action := .move c (.reply (.answered ⟨200, ∅, []⟩))

/-- The backend does not answer. -/
def fails (c : ℕ) : Action := .move c (.reply (.failed (.library "connection refused")))

/-- A call finds no healthy backend and puts its request into the queue. -/
def enqueues (c : ℕ) (req : ReqId) : List Action :=
  [.call c req, .move c (.choose .next), .move c (.choose .next), .move c (.choose .next),
    .move c (.choose .send), .move c (.choose .next)]

/-- A call finds a healthy backend, takes a request from the queue and sends it. -/
def takes (c : ℕ) : List Action :=
  [.move c (.choose .next), .move c (.choose .next), .move c (.choose .next),
    .move c (.choose .receive), .move c (.choose .next), .move c (.choose .next), sends c]

/-- Two calls queue their requests; when a backend becomes healthy, the second call is the
first to take a request from the queue, and returns the answer to the first call's. -/
theorem second_call_returns_first_answer :
  ∃ t, (machine smallService).run (State.init smallService [.unhealthy] 0)
      (enqueues 0 0 ++ enqueues 1 1 ++ [.setBackends [.healthy]] ++ takes 1 ++ [answers 1])
        = some t ∧
    ¬ Delivered t
  := by
  refine ⟨_, rfl, ?_⟩
  intro h
  have hown := h 1 _ _ rfl rfl
  cases hown

/-- Two calls queue their requests; each takes its own, while the other one waits or sends, and
returns the answer to it. -/
theorem two_calls_delivered :
  (machine smallService).Always Delivered (State.init smallService [.unhealthy] 0)
    (enqueues 0 0 ++ enqueues 1 1 ++ [.setBackends [.healthy]] ++ takes 0 ++ takes 1
      ++ [answers 1, answers 0])
  := delivered_of_takesOwn smallService [.unhealthy] 0 _ (by decide +kernel)

end Proxy

end VmProxyAuth
