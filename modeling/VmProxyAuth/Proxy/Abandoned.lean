import VmProxyAuth.Proxy.Delivery

/-!
# Requests whose callers have gone

A request stays in the queue, or in the hands of the call that took it from there and has attempts
left, when the call it was made with has come to its end.  `Call.ends` lists the ways in which a
call can come to its end.  No request of a call that is over is queued or may still be sent exactly
if no call ends while its request is queued or taken, and no request of a call that is over is put
back (`attended_iff`).
-/

namespace VmProxyAuth

namespace Proxy

open Queue

/-- A call is over: it has returned or panicked. -/
def Pc.over : Pc → Bool
  | .returned _ => true
  | .panicked => true
  | _ => false

/-- Whether a call of `forwardToBackendDirect` may still send its request. -/
def ForwardPc.sendsYet (retries : ℤ) : ForwardPc → Bool
  | .loop attempt _ => decide (attempt < retries.toNat)
  | .backoff _ _ => true
  | .send _ => true
  | .await attempt _ => decide (attempt + 1 < retries.toNat)
  | .ended _ => false

/-- The request a call has taken from the queue and may still send. -/
def Pc.taken (retries : ℤ) : Pc → Option ReqId
  | .dequeue _ pc => pc.taken
  | .forward (.taken _ req) pc => if pc.sendsYet retries then some req else none
  | _ => none

/-- The request a call is about to send to an upstream. -/
def Call.sending (call : Call) : Option ReqId :=
  match call.pc with
  | .forward reason (.send _) => some (reason.req call.req)
  | _ => none

/-- Some call with the request is in progress. -/
def Live (s : State) (req : ReqId) : Prop :=
  ∃ c call, s.calls c = some call ∧ call.req = req ∧ call.pc.over = false

/-- No call is in progress. -/
def Idle (s : State) : Prop := ∀ c call, s.calls c = some call → call.pc.over = true

/-- What is sent to an upstream in a step is the request of a call in progress. -/
def SendsLive (s : State) : Action → Prop
  | .move c (.send _ _) =>
    ∀ call req, s.calls c = some call → call.sending = some req → Live s req
  | _ => True

/-- The queue is empty whenever no call is in progress. -/
def EmptyWhenIdle (s : State) : Prop := Idle s → s.shared.queue.queue.buffer = []

/-! ### The ends of a call -/

/-- Whether a step of `Enqueue` ends the call: the queue is closed, the context is done, the
request is dropped, or it has been put back. -/
def enqueueEnds (mq : MemoryQueue ReqId) (reason : EnqueueReason) : EnqueuePc → Choice → Bool
  | .check, _ => mq.closed
  | .select, .send => mq.queue.closed
  | .select, .ctxDone => true
  | .count, _ =>
    match reason with
    | .requeue _ => true
    | _ => false
  | .drop, _ => true
  | _, _ => false

/-- Whether a step of `Dequeue` ends the call: the queue is closed, the context is done, or the
timer has fired. -/
def dequeueEnds (mq : MemoryQueue ReqId) : DequeuePc ReqId → Choice → Bool
  | .check, _ => mq.closed
  | .select _, .receive => mq.queue.buffer.isEmpty
  | .select _, .ctxDone => true
  | .select _, .elapse => true
  | .block _, .receive => mq.queue.buffer.isEmpty
  | .block _, .ctxDone => true
  | .block _, .elapse => true
  | _, _ => false

/-- Whether an error of `forwardToBackendDirect` is returned. -/
def ForwardReason.isLast : ForwardReason → Bool
  | .last => true
  | _ => false

/-- Whether a step of `forwardToBackendDirect` ends the call: there is nothing to log after the
last attempt, an error is returned, or the upstream has answered. -/
def forwardEnds (retries : ℤ) (reason : ForwardReason) : ForwardPc → Move → Bool
  | .loop attempt lastErr, _ =>
    decide (retries.toNat ≤ attempt) && (lastErr.isNone || reason.isLast)
  | .backoff _ _, .choose .ctxDone => reason.isLast
  | .await _ _, .reply reply => reply.succeeds
  | _, _ => false

/-- Whether a step ends a call, by where the call stands. -/
def Call.ends (S : Service) (sh : Shared) (call : Call) (m : Move) : Bool :=
  match call.pc, m with
  | .start, _ => sh.closed
  | .sizeCheck _, _ => decide (S.maxSize ≤ sh.queue.size)
  | .enqueue reason _ pc, .choose choice => enqueueEnds sh.queue reason pc choice
  | .poll startTime, _ => decide (S.timeout ≤ sh.now - startTime)
  | .wait _ _, .choose .ctxDone => true
  | .dequeue _ pc, .choose choice => dequeueEnds sh.queue pc choice
  | .forward reason pc, m => forwardEnds S.retries reason pc m
  | .requeueCheck startTime _ _, _ =>
    decide (S.maxSize ≤ sh.queue.size ∨ S.timeout ≤ sh.now - startTime)
  | _, _ => false

/-- The request a step of `Enqueue` puts into the queue. -/
def enqueuePuts (mq : MemoryQueue ReqId) (req : ReqId) : EnqueuePc → Choice → Option ReqId
  | .select, .send => if mq.queue.closed then none else some req
  | _, _ => none

/-- The request a step of a call puts into the queue. -/
def Call.puts (sh : Shared) (call : Call) (m : Move) : Option ReqId :=
  match call.pc, m with
  | .enqueue _ req pc, .choose choice => enqueuePuts sh.queue req pc choice
  | _, _ => none

/-- What a step does to the requests in the queue, if it puts one there and ends its call or not:
it keeps them, adds the request it puts there, or removes the oldest one.  The last two do not end
the call. -/
inductive Effect (before after : List ReqId) : (puts : Option ReqId) → (ends : Bool) → Prop where
  | keeps {ends : Bool} (h : after = before) : Effect before after none ends
  | adds {req : ReqId} (h : after = before ++ [req]) : Effect before after (some req) false
  | removes {req : ReqId} (h : before = req :: after) : Effect before after none false

theorem Effect.mem_of_puts {before after : List ReqId} {req : ReqId} {ends : Bool}
    (h : Effect before after (some req) ends) :
  req ∈ after
  := by
  cases h with
  | adds hafter =>
    rw [hafter]
    apply List.mem_append_right _ (List.mem_singleton_self req)

/-- What is queued after a step was queued before, or is put there. -/
theorem Effect.mem_or_puts {before after : List ReqId} {puts : Option ReqId} {ends : Bool}
    (h : Effect before after puts ends) {req : ReqId} (hreq : req ∈ after) :
  req ∈ before ∨ puts = some req ∧ ends = false
  := by
  cases h with
  | keeps hsame =>
    left
    rw [← hsame]
    apply hreq
  | adds hadded =>
    rw [hadded] at hreq
    obtain hold | hnew := List.mem_append.mp hreq
    · apply Or.inl hold
    · rw [List.mem_singleton.mp hnew]
      apply Or.inr ⟨rfl, rfl⟩
  | removes hremoved =>
    left
    rw [hremoved]
    apply List.mem_cons_of_mem _ hreq

/-- A step that ends its call keeps what is queued. -/
theorem Effect.eq_of_ends {before after : List ReqId} {puts : Option ReqId}
    (h : Effect before after puts true) :
  after = before
  := by
  cases h with
  | keeps hsame => apply hsame

/-- A step that changes nothing shared ends the call as listed. -/
theorem over_localStep {S : Service} {sh : Shared} {call : Call} {choice : Choice} {pc : Pc}
    (h : localStep S sh call choice = some pc) :
  pc.over = call.ends S sh (.choose choice)
  := by
  rw [localStep.eq_def] at h
  rw [Call.ends.eq_def]
  split at h
  · rename_i hpc
    cases h
    rw [hpc]
    cases hclosed : sh.closed with
    | true => rfl
    | false => cases S.queueEnabled <;> rfl
  · rename_i hpc
    cases h
    rw [hpc]
    cases sh.hasHealthyBackends <;> rfl
  · rename_i hpc
    cases h
    rw [hpc]
    by_cases hsize : sh.queue.size < S.maxSize
    · simp [hsize, Pc.over]
    · simp [hsize, Pc.over, Nat.not_lt.mp hsize]
  · rename_i startTime hpc
    cases h
    rw [hpc]
    by_cases htime : sh.now - startTime < S.timeout
    · simp [htime, Pc.over]
    · simp [htime, Pc.over, not_lt.mp htime]
  · rename_i hpc
    cases h
    rw [hpc]
    cases sh.hasHealthyBackends <;> rfl
  · rename_i hpc
    obtain ⟨-, ⟨⟩⟩ := Option.ite_none_right_eq_some.mp h
    rw [hpc]
    rfl
  · rename_i hpc
    obtain ⟨-, ⟨⟩⟩ := Option.ite_none_right_eq_some.mp h
    rw [hpc]
    rfl
  · rename_i startTime req err hpc
    cases h
    rw [hpc]
    by_cases hfull : S.maxSize ≤ sh.queue.size ∨ S.timeout ≤ sh.now - startTime
    · simp [hfull, Pc.over]
    · simp [hfull, Pc.over]
  · cases h

/-- A step that changes nothing shared puts nothing into the queue. -/
theorem puts_localStep {S : Service} {sh : Shared} {call : Call} {choice : Choice} {pc : Pc}
    (h : localStep S sh call choice = some pc) :
  call.puts sh (.choose choice) = none
  := by
  rw [Call.puts.eq_def]
  split
  · rename_i hpc _
    rw [localStep.eq_def, hpc] at h
    cases h
  · rfl

/-- A step of `forwardToBackendDirect` ends the call as listed. -/
theorem over_afterForward {urlParse : GoString → Except GoError Http.URL} {retries backoff now : ℤ}
    {request : ProxyRequest} {cancelled : Bool} {t t' : Trace} {pc pc' : ForwardPc} {m : Move}
    (h : forwardStep urlParse retries backoff request now cancelled t pc m = some (t', pc'))
    (own : ReqId) (reason : ForwardReason) :
  (afterForward own reason pc').over = forwardEnds retries reason pc m
  := by
  have hfailure : ∀ err, (afterFailure err reason).over = reason.isLast := by
    intro err
    cases reason with
    | first => rfl
    | taken startTime req => rfl
    | last => rfl
  rw [forwardStep.eq_def] at h
  split at h
  · rename_i attempt lastErr
    cases h
    rw [forwardEnds, loopNext.eq_def]
    by_cases hlt : attempt < retries.toNat
    · rw [if_pos hlt, decide_eq_false (Nat.not_le.mpr hlt), Bool.false_and]
      split
      · rfl
      · rfl
    · rw [if_neg hlt, decide_eq_true (Nat.not_lt.mp hlt), Bool.true_and]
      cases lastErr with
      | none => rfl
      | some err => apply hfailure
  · obtain ⟨-, ⟨⟩⟩ := Option.ite_none_right_eq_some.mp h
    apply hfailure
  · obtain ⟨-, ⟨⟩⟩ := Option.ite_none_right_eq_some.mp h
    rfl
  · rename_i attempt selection consumed
    cases h
    rw [afterIssue.eq_def]
    split
    · rfl
    · rfl
  · rename_i attempt backendURL reply
    cases h
    rw [forwardEnds]
    obtain ⟨t', -, -, ⟨hsucceeds, response, hok⟩ | ⟨hfails, err, herror⟩⟩ :=
      processReply_spec backendURL reply t
    · rw [hok, hsucceeds]
      rfl
    · rw [herror, hfails]
      rfl
  · cases h

/-- `Enqueue` ends the call as listed, and changes what is queued only by sending. -/
theorem enqueueStep_spec {mq mq' : MemoryQueue ReqId} {cancelled : Bool} {req : ReqId}
    {pc pc' : EnqueuePc} {choice : Choice}
    (h : mq.enqueueStep cancelled req pc choice = some (mq', pc')) (now : ℤ)
    (reason : EnqueueReason) :
  (afterEnqueue now reason req pc').over = enqueueEnds mq reason pc choice ∧
    Effect mq.queue.buffer mq'.queue.buffer (enqueuePuts mq req pc choice)
      (enqueueEnds mq reason pc choice)
  := by
  rw [MemoryQueue.enqueueStep.eq_def] at h
  split at h
  · cases h
    constructor
    · cases hclosed : mq.closed with
      | true => cases reason <;> simp [afterEnqueue, enqueueEnds, Pc.over, hclosed]
      | false => simp [afterEnqueue, enqueueEnds, Pc.over, hclosed]
    · apply Effect.keeps rfl
  · split at h
    · rename_i queue hsent
      cases h
      obtain ⟨hclosed, hbuffer⟩ := Chan.buffer_of_sent hsent
      rw [enqueueEnds, enqueuePuts, hclosed]
      use rfl
      apply Effect.adds hbuffer
    · rename_i hpanics
      cases h
      rw [enqueueEnds, enqueuePuts, Chan.closed_of_panics hpanics]
      use rfl
      apply Effect.keeps rfl
    · cases h
  · obtain ⟨-, ⟨⟩⟩ := Option.ite_none_right_eq_some.mp h
    constructor
    · cases reason <;> rfl
    · apply Effect.keeps rfl
  · obtain ⟨-, ⟨⟩⟩ := Option.ite_none_right_eq_some.mp h
    use rfl
    apply Effect.keeps rfl
  · cases h
    constructor
    · cases reason <;> rfl
    · apply Effect.keeps rfl
  · cases h
    constructor
    · cases reason <;> rfl
    · apply Effect.keeps rfl
  · cases h

/-- Receiving ends the call only if the queue is empty, and otherwise takes the oldest
request. -/
theorem dequeueReceive_spec {mq mq' : MemoryQueue ReqId} {pc' : DequeuePc ReqId}
    (h : mq.dequeueReceive = some (mq', pc')) (startTime : ℤ) :
  (afterDequeue startTime pc').over = mq.queue.buffer.isEmpty ∧
    Effect mq.queue.buffer mq'.queue.buffer none mq.queue.buffer.isEmpty
  := by
  obtain ⟨-, ⟨req, rfl, hbuffer, -⟩ | ⟨rfl, hempty, -, hqueue⟩⟩ := dequeueReceive_cases h
  · rw [hbuffer]
    use rfl
    apply Effect.removes rfl
  · rw [hqueue, hempty]
    use rfl
    apply Effect.keeps rfl

/-- `Dequeue` ends the call as listed, and changes what is queued only by receiving. -/
theorem dequeueStep_spec {mq mq' : MemoryQueue ReqId} {now : ℤ} {cancelled : Bool}
    {pc pc' : DequeuePc ReqId} {choice : Choice}
    (h : mq.dequeueStep now cancelled pc choice = some (mq', pc')) (startTime : ℤ) :
  (afterDequeue startTime pc').over = dequeueEnds mq pc choice ∧
    Effect mq.queue.buffer mq'.queue.buffer none (dequeueEnds mq pc choice)
  := by
  rw [MemoryQueue.dequeueStep.eq_def] at h
  split at h
  · cases h
    constructor
    · cases hclosed : mq.closed with
      | true => simp [afterDequeue, dequeueEnds, Pc.over, hclosed, AppError.queueClosed,
          AppError.queueEmpty]
      | false => simp [afterDequeue, dequeueEnds, Pc.over, hclosed]
    · apply Effect.keeps rfl
  · apply dequeueReceive_spec h
  · obtain ⟨-, ⟨⟩⟩ := Option.ite_none_right_eq_some.mp h
    use rfl
    apply Effect.keeps rfl
  · obtain ⟨-, ⟨⟩⟩ := Option.ite_none_right_eq_some.mp h
    use rfl
    apply Effect.keeps rfl
  · rename_i deadline
    obtain ⟨-, ⟨⟩⟩ := Option.ite_none_right_eq_some.mp h
    constructor
    · cases deadline <;> rfl
    · apply Effect.keeps rfl
  · apply dequeueReceive_spec h
  · obtain ⟨-, ⟨⟩⟩ := Option.ite_none_right_eq_some.mp h
    use rfl
    apply Effect.keeps rfl
  · obtain ⟨-, ⟨⟩⟩ := Option.ite_none_right_eq_some.mp h
    use rfl
    apply Effect.keeps rfl
  · cases h
    use rfl
    apply Effect.keeps rfl
  · cases h

/-- A step ends a call as listed, and changes what is queued only by sending or receiving,
which end no call. -/
theorem callStep_spec {S : Service} {sh sh' : Shared} {call : Call} {m : Move} {pc : Pc}
    (h : callStep S sh call m = some (sh', pc)) :
  pc.over = call.ends S sh m ∧
    Effect sh.queue.queue.buffer sh'.queue.queue.buffer (call.puts sh m) (call.ends S sh m)
  := by
  cases stepKind_of_callStep h with
  | «local» hlocal =>
    rw [puts_localStep hlocal]
    use over_localStep hlocal
    apply Effect.keeps rfl
  | enqueue hpc hstep =>
    rw [Call.ends.eq_def, Call.puts.eq_def, hpc]
    apply enqueueStep_spec hstep
  | dequeue hpc hstep =>
    rw [Call.ends.eq_def, Call.puts.eq_def, hpc]
    apply dequeueStep_spec hstep
  | forward hpc hstep =>
    rw [Call.ends.eq_def, Call.puts.eq_def, hpc]
    use over_afterForward hstep call.req _
    apply Effect.keeps rfl

/-! ### Attended requests -/

/-- Some call other than `c` with the request is in progress. -/
def LiveBeside (s : State) (c : ℕ) (req : ReqId) : Prop :=
  ∃ c' call, c' ≠ c ∧ s.calls c' = some call ∧ call.req = req ∧ call.pc.over = false

/-- Every request that is queued, or taken from the queue by a call that may still send it, is
that of a call in progress. -/
structure Attended (S : Service) (s : State) : Prop where
  queued : ∀ req ∈ s.shared.queue.queue.buffer, Live s req
  taken : ∀ c call req, s.calls c = some call → call.pc.taken S.retries = some req → Live s req

/-- Unless another call with the same request is in progress, no call ends while its request is
queued, or taken by another call that may still send it; and no request is put into the queue
unless a call with it is in progress. -/
def KeepsAttended (S : Service) (s : State) : Action → Prop
  | .move c m => ∀ call ∈ s.calls c,
    (call.ends S s.shared m = true → LiveBeside s c call.req ∨
      call.req ∉ s.shared.queue.queue.buffer ∧
        ∀ c' call', c' ≠ c → s.calls c' = some call' →
          call'.pc.taken S.retries ≠ some call.req) ∧
    ∀ req ∈ call.puts s.shared m, Live s req
  | _ => True

theorem live_iff {s : State} {c : ℕ} {call : Call} (h : s.calls c = some call) (req : ReqId) :
  Live s req ↔ call.req = req ∧ call.pc.over = false ∨ LiveBeside s c req
  := by
  constructor
  · rintro ⟨c', call', hcall', hreq, hover⟩
    by_cases heq : c' = c
    · rw [heq, h] at hcall'
      cases hcall'
      apply Or.inl ⟨hreq, hover⟩
    · apply Or.inr ⟨c', call', heq, hcall', hreq, hover⟩
  · rintro (⟨hreq, hover⟩ | ⟨c', call', -, hcall', hreq, hover⟩)
    · exact ⟨c, call, h, hreq, hover⟩
    · exact ⟨c', call', hcall', hreq, hover⟩

/-- A step of a call leaves the other calls as they are. -/
theorem liveBeside_setCall (s : State) (sh : Shared) (c : ℕ) (call : Call) (req : ReqId) :
  LiveBeside ({ s with shared := sh }.setCall c call) c req ↔ LiveBeside s c req
  := by
  constructor
  · rintro ⟨c', call', hne, hcall', hrest⟩
    have hsame := (Function.update_of_ne hne _ _).symm.trans hcall'
    exact ⟨c', call', hne, hsame, hrest⟩
  · rintro ⟨c', call', hne, hcall', hrest⟩
    exact ⟨c', call', hne, (Function.update_of_ne hne _ _).trans hcall', hrest⟩

/-- If nothing is queued or taken anew and the calls in progress stay so, every request stays
attended. -/
theorem Attended.mono {S : Service} {s t : State} (h : Attended S s)
    (hbuffer : t.shared.queue.queue.buffer = s.shared.queue.queue.buffer)
    (hlive : ∀ req, Live s req → Live t req)
    (htaken : ∀ c call req, t.calls c = some call → call.pc.taken S.retries = some req →
      ∃ before, s.calls c = some before ∧ before.pc.taken S.retries = some req) :
  Attended S t
  := by
  constructor
  · intro req hreq
    rw [hbuffer] at hreq
    apply hlive req (h.queued req hreq)
  · intro c call req hcall hreq
    obtain ⟨before, hbefore, hheld⟩ := htaken c call req hcall hreq
    apply hlive req (h.taken c before req hbefore hheld)

/-- What a call has taken and may still send it holds. -/
theorem holds_of_taken {retries : ℤ} {pc : Pc} {req : ReqId} (h : pc.taken retries = some req) :
  pc.holds = some req
  := by
  rw [Pc.taken.eq_def] at h
  split at h
  · apply h
  · obtain ⟨-, ⟨⟩⟩ := Option.ite_none_right_eq_some.mp h
    rfl
  · cases h

/-- A call that may still send its request after a step might do so before it. -/
theorem sendsYet_forwardStep {urlParse : GoString → Except GoError Http.URL}
    {retries backoff now : ℤ} {request : ProxyRequest} {cancelled : Bool} {t t' : Trace}
    {pc pc' : ForwardPc} {m : Move}
    (h : forwardStep urlParse retries backoff request now cancelled t pc m = some (t', pc'))
    (hyet : pc'.sendsYet retries = true) :
  pc.sendsYet retries = true
  := by
  rw [forwardStep.eq_def] at h
  split at h
  · rename_i attempt lastErr
    cases h
    by_cases hlt : attempt < retries.toNat
    · apply decide_eq_true hlt
    · rw [loopNext.eq_def, if_neg hlt] at hyet
      split at hyet
      · cases hyet
      · cases hyet
  · rfl
  · rfl
  · rfl
  · cases h
    rw [afterReply.eq_def] at hyet
    split at hyet
    · cases hyet
    · apply hyet
  · cases h

/-- What a call has taken after a step of `forwardToBackendDirect` it had taken before. -/
theorem taken_afterForward {retries : ℤ} {own req : ReqId} {reason : ForwardReason}
    {pc pc' : ForwardPc} (hyet : pc'.sendsYet retries = true → pc.sendsYet retries = true)
    (h : (afterForward own reason pc').taken retries = some req) :
  (Pc.forward reason pc).taken retries = some req
  := by
  have hforward : (Pc.forward reason pc').taken retries = some req := by
    cases pc' with
    | ended outcome =>
      rcases outcome with (err | response) | _
      · cases reason with
        | first => cases h
        | taken startTime req => cases h
        | last => cases h
      · cases h
      · cases h
    | _ => apply h
  cases reason with
  | taken startTime req =>
    obtain ⟨hsends, ⟨⟩⟩ := Option.ite_none_right_eq_some.mp hforward
    apply if_pos (hyet hsends)
  | first => cases hforward
  | last => cases hforward

/-- What a call has taken after a step it had taken before, or it is the oldest one queued. -/
theorem taken_callStep {S : Service} {sh sh' : Shared} {call : Call} {m : Move} {pc : Pc}
    {req : ReqId} (h : callStep S sh call m = some (sh', pc))
    (htaken : pc.taken S.retries = some req) :
  call.pc.taken S.retries = some req ∨ req ∈ sh.queue.queue.buffer
  := by
  have hholds := holds_of_taken htaken
  cases stepKind_of_callStep h with
  | «local» hlocal =>
    rw [holds_localStep hlocal] at hholds
    cases hholds
  | enqueue hpc hstep =>
    rw [holds_afterEnqueue] at hholds
    cases hholds
  | dequeue hpc hstep =>
    obtain hbefore | ⟨-, hhead⟩ := taken_dequeueStep hstep (holds_afterDequeue hholds)
    · left
      rw [hpc]
      apply hbefore
    · apply Or.inr (List.mem_of_head? hhead)
  | forward hpc hstep =>
    left
    rw [hpc]
    apply taken_afterForward (sendsYet_forwardStep hstep) htaken

/-- A call that takes a step is in progress. -/
theorem over_of_callStep {S : Service} {sh sh' : Shared} {call : Call} {m : Move} {pc : Pc}
    (h : callStep S sh call m = some (sh', pc)) :
  call.pc.over = false
  := by
  cases stepKind_of_callStep h with
  | «local» hlocal =>
    rw [localStep.eq_def] at hlocal
    cases hpc : call.pc with
    | returned result =>
      rw [hpc] at hlocal
      cases hlocal
    | panicked =>
      rw [hpc] at hlocal
      cases hlocal
    | _ => rfl
  | enqueue hpc hstep =>
    rw [hpc]
    rfl
  | dequeue hpc hstep =>
    rw [hpc]
    rfl
  | forward hpc hstep =>
    rw [hpc]
    rfl

theorem over_of_taken {retries : ℤ} {pc : Pc} {req : ReqId} (h : pc.taken retries = some req) :
  pc.over = false
  := by
  cases pc with
  | returned result => cases h
  | panicked => cases h
  | _ => rfl

section Move

variable {S : Service} {s : State} {c : ℕ} {call : Call} {m : Move} {sh : Shared} {pc : Pc}

/-- After a step of a call its own request is live if the step does not end it, and the others
are as before. -/
theorem live_move (hstep : callStep S s.shared call m = some (sh, pc)) (req : ReqId) :
  Live ({ s with shared := sh }.setCall c { call with pc := pc }) req
    ↔ call.req = req ∧ call.ends S s.shared m = false ∨ LiveBeside s c req
  := by
  have hself : ({ s with shared := sh }.setCall c { call with pc := pc }).calls c
      = some { call with pc := pc } := Function.update_self _ _ _
  rw [live_iff hself, liveBeside_setCall, ← (callStep_spec hstep).1]

/-- What is live after a step of a call was live before it. -/
theorem live_of_live_move (hcall : s.calls c = some call)
    (hstep : callStep S s.shared call m = some (sh, pc)) {req : ReqId}
    (hreq : Live ({ s with shared := sh }.setCall c { call with pc := pc }) req) :
  Live s req
  := by
  rw [live_iff hcall]
  obtain ⟨heq, -⟩ | hbeside := (live_move hstep req).mp hreq
  · apply Or.inl ⟨heq, over_of_callStep hstep⟩
  · apply Or.inr hbeside

/-- If a step of a call leaves every request attended, it is as `KeepsAttended` says. -/
theorem keepsAttended_of_move (hcall : s.calls c = some call)
    (hstep : callStep S s.shared call m = some (sh, pc))
    (hnext : Attended S ({ s with shared := sh }.setCall c { call with pc := pc })) :
  KeepsAttended S s (.move c m)
  := by
  obtain ⟨-, heffect⟩ := callStep_spec hstep
  intro call' hcall'
  obtain rfl : call = call' := Option.some.inj (hcall.symm.trans hcall')
  constructor
  · intro hends
    by_cases hbeside : LiveBeside s c call.req
    · apply Or.inl hbeside
    · have hdead :
          ¬ Live ({ s with shared := sh }.setCall c { call with pc := pc }) call.req := by
        rw [live_move hstep, hends]
        simp [hbeside]
      right
      constructor
      · intro hmem
        rw [hends] at heffect
        rw [← heffect.eq_of_ends] at hmem
        apply hdead (hnext.queued call.req hmem)
      · intro c' call' hne hc' htaken
        apply hdead (hnext.taken c' call' call.req _ htaken)
        apply (Function.update_of_ne hne _ s.calls).trans hc'
  · intro req hputs
    rw [Option.mem_def.mp hputs] at heffect
    apply live_of_live_move hcall hstep (hnext.queued req _)
    apply heffect.mem_of_puts

/-- A live request stays live, unless its call ends and no other has it. -/
theorem live_move_of_live (hcall : s.calls c = some call)
    (hstep : callStep S s.shared call m = some (sh, pc)) {req : ReqId} (hreq : Live s req)
    (hcond : call.ends S s.shared m = true → req = call.req → LiveBeside s c req) :
  Live ({ s with shared := sh }.setCall c { call with pc := pc }) req
  := by
  rw [live_move hstep]
  obtain ⟨heq, -⟩ | hbeside := (live_iff hcall req).mp hreq
  · cases hended : call.ends S s.shared m with
    | true => apply Or.inr (hcond hended heq.symm)
    | false => exact Or.inl ⟨heq, rfl⟩
  · apply Or.inr hbeside

/-- What is queued after a step as `KeepsAttended` says is live. -/
theorem queued_move (h : Attended S s) (hcall : s.calls c = some call)
    (hstep : callStep S s.shared call m = some (sh, pc)) (hguard : KeepsAttended S s (.move c m))
    {req : ReqId} (hreq : req ∈ sh.queue.queue.buffer) :
  Live ({ s with shared := sh }.setCall c { call with pc := pc }) req
  := by
  obtain ⟨hends, hputs⟩ := hguard call hcall
  obtain ⟨-, heffect⟩ := callStep_spec hstep
  obtain hold | ⟨hnew, hnot⟩ := heffect.mem_or_puts hreq
  · apply live_move_of_live hcall hstep (h.queued req hold)
    rintro hended rfl
    obtain hbeside | ⟨hunqueued, -⟩ := hends hended
    · apply hbeside
    · apply absurd hold hunqueued
  · apply live_move_of_live hcall hstep (hputs req hnew)
    intro hended
    rw [hnot] at hended
    cases hended

/-- What a call has taken after its step is live. -/
theorem taken_move (h : Attended S s) (hcall : s.calls c = some call)
    (hstep : callStep S s.shared call m = some (sh, pc)) {req : ReqId}
    (htaken : pc.taken S.retries = some req) :
  Live ({ s with shared := sh }.setCall c { call with pc := pc }) req
  := by
  have hbefore : Live s req := by
    obtain hheld | hqueued := taken_callStep hstep htaken
    · apply h.taken c call req hcall hheld
    · apply h.queued req hqueued
  apply live_move_of_live hcall hstep hbefore
  intro hended
  rw [← (callStep_spec hstep).1, over_of_taken htaken] at hended
  cases hended

/-- A step of a call keeps every request attended exactly as `KeepsAttended` says. -/
theorem attended_move_iff (h : Attended S s) (hcall : s.calls c = some call)
    (hstep : callStep S s.shared call m = some (sh, pc)) :
  Attended S ({ s with shared := sh }.setCall c { call with pc := pc })
    ↔ KeepsAttended S s (.move c m)
  := by
  constructor
  · apply keepsAttended_of_move hcall hstep
  · intro hguard
    constructor
    · intro req hreq
      apply queued_move h hcall hstep hguard hreq
    · intro c' call' req hc' htaken
      by_cases hne : c' = c
      · subst hne
        obtain rfl := Option.some.inj ((Function.update_self c' _ s.calls).symm.trans hc')
        apply taken_move h hcall hstep htaken
      · have hsame := (Function.update_of_ne hne _ s.calls).symm.trans hc'
        apply live_move_of_live hcall hstep (h.taken c' call' req hsame htaken)
        rintro hended rfl
        obtain hbeside | ⟨-, huntaken⟩ := (hguard call hcall).1 hended
        · apply hbeside
        · apply absurd htaken (huntaken c' call' hne hsame)

end Move

/-- A step keeps every request attended exactly as `KeepsAttended` says. -/
theorem attended_step_iff {S : Service} {s t : State} {a : Action} (h : Attended S s)
    (hstep : step S s a = some t) :
  Attended S t ↔ KeepsAttended S s a
  := by
  cases a with
  | call c req =>
    obtain ⟨hnone, ⟨⟩⟩ := Option.ite_none_right_eq_some.mp hstep
    rw [Option.isNone_iff_eq_none] at hnone
    apply iff_of_true _ trivial
    refine h.mono rfl ?_ ?_
    · rintro req' ⟨c', call, hcall, hlive⟩
      have hne : c' ≠ c := by
        rintro rfl
        rw [hnone] at hcall
        cases hcall
      exact ⟨c', call, (Function.update_of_ne hne _ _).trans hcall, hlive⟩
    · intro c' call req' hcall htaken
      by_cases hc : c' = c
      · subst hc
        have hnew := (Function.update_self c' _ s.calls).symm.trans hcall
        cases hnew
        cases htaken
      · have hsame := (Function.update_of_ne hc _ _).symm.trans hcall
        exact ⟨call, hsame, htaken⟩
  | move c m =>
    obtain ⟨call, hcall, hmove⟩ := Option.bind_eq_some_iff.mp hstep
    obtain ⟨⟨sh, pc⟩, hcallStep, rfl⟩ := Option.map_eq_some_iff.mp hmove
    apply attended_move_iff h hcall hcallStep
  | cancel c =>
    obtain ⟨call, hcall, rfl⟩ := Option.map_eq_some_iff.mp hstep
    apply iff_of_true _ trivial
    have hself : (s.setCall c { call with cancelled := true }).calls c
        = some { call with cancelled := true } := Function.update_self _ _ _
    refine h.mono rfl ?_ ?_
    · intro req hlive
      rw [live_iff hself]
      obtain hown | hbeside := (live_iff hcall req).mp hlive
      · apply Or.inl hown
      · apply Or.inr ((liveBeside_setCall s s.shared c _ req).mpr hbeside)
    · intro c' call' req hcall' htaken
      by_cases hc : c' = c
      · subst hc
        obtain rfl := Option.some.inj (hself.symm.trans hcall')
        exact ⟨call, hcall, htaken⟩
      · have hsame := (Function.update_of_ne hc _ _).symm.trans hcall'
        exact ⟨call', hsame, htaken⟩
  | setBackends backends =>
    cases hstep
    exact iff_of_true (h.mono rfl (fun _ => id) (fun _ call _ hcall hreq => ⟨call, hcall, hreq⟩))
      trivial
  | tick d =>
    cases hstep
    exact iff_of_true (h.mono rfl (fun _ => id) (fun _ call _ hcall hreq => ⟨call, hcall, hreq⟩))
      trivial
  | close =>
    cases hstep
    refine iff_of_true (h.mono ?_ (fun _ => id) (fun _ call _ hcall hreq => ⟨call, hcall, hreq⟩))
      trivial
    dsimp only
    split
    · rfl
    · rw [MemoryQueue.close]
      split
      · rfl
      · rfl

theorem attended_init (S : Service) (backends : List BackendState) (now : ℤ) :
  Attended S (State.init S backends now)
  := by
  constructor
  · rintro req ⟨⟩
  · rintro c call req ⟨⟩

/-- Along a run every request that is queued or about to be sent is that of a call in progress
exactly if every step is as `KeepsAttended` says. -/
theorem attended_iff (S : Service) (backends : List BackendState) (now : ℤ)
    (actions : List Action) :
  (machine S).Always (Attended S) (State.init S backends now) actions
    ↔ (machine S).Meets (KeepsAttended S) (State.init S backends now) actions
  := by
  apply Machine.always_iff_meets (J := fun _ => True)
  · intro s a t _ _
    trivial
  · intro s a t _ hs hstep
    apply attended_step_iff hs hstep
  · trivial
  · apply attended_init

/-- What a call sends when every request is attended is the request of a call in progress. -/
theorem Attended.live_of_sending {S : Service} {s : State} (h : Attended S s) {c : ℕ}
    {call : Call} {req : ReqId} (hcall : s.calls c = some call)
    (hsending : call.sending = some req) :
  Live s req
  := by
  rw [Call.sending] at hsending
  split at hsending
  · rename_i reason attempt hpc
    have hown : Live s call.req := by
      use c, call, hcall, rfl
      rw [hpc]
      rfl
    cases hsending
    cases reason with
    | first => apply hown
    | last => apply hown
    | taken startTime req =>
      apply h.taken c call req hcall
      rw [hpc]
      rfl
  · cases hsending

theorem Attended.sendsLive {S : Service} {s : State} (h : Attended S s) (a : Action) :
  SendsLive s a
  := by
  rw [SendsLive.eq_def]
  split
  · intro call req hcall hsending
    apply h.live_of_sending hcall hsending
  · trivial

theorem Attended.emptyWhenIdle {S : Service} {s : State} (h : Attended S s) :
  EmptyWhenIdle s
  := by
  intro hidle
  apply List.eq_nil_iff_forall_not_mem.mpr
  intro req hreq
  obtain ⟨c, call, hcall, -, hover⟩ := h.queued req hreq
  rw [hidle c call hcall] at hover
  cases hover

/-- In every run in which no call ends while its request is queued or taken by another call,
and none is put back after its call is over, every request sent to an upstream is that of a
call in progress, and the queue is empty whenever no call is in progress. -/
theorem no_ghost_of_keepsAttended (S : Service) (backends : List BackendState) (now : ℤ)
    (actions : List Action)
    (h : (machine S).Meets (KeepsAttended S) (State.init S backends now) actions) :
  (machine S).Meets SendsLive (State.init S backends now) actions ∧
    (machine S).Always EmptyWhenIdle (State.init S backends now) actions
  := by
  have hattended := (attended_iff S backends now actions).mpr h
  constructor
  · apply hattended.meets
    intro s a hs
    apply hs.sendsLive
  · apply hattended.imp
    intro s hs
    apply hs.emptyWhenIdle

/-- A call queues its request and gives up when the time is over.  Its request stays in the
queue, and is sent by a call that comes later. -/
theorem timed_out_request_sent :
  ∃ t t', (machine smallService).run (State.init smallService [.unhealthy] 0)
      (enqueues 0 0 ++ [.tick 5000000000, .move 0 (.choose .next)]) = some t ∧
    (∃ err, (t.calls 0).map Call.pc = some (.returned (.error err))) ∧
    t.shared.queue.queue.buffer = [0] ∧ (t.shared.traces 0).sent.length = 0 ∧
    (machine smallService).run t
      (enqueues 1 1 ++ [.setBackends [.healthy]] ++ takes 1) = some t' ∧
    (t'.shared.traces 0).sent.length = 1
  := ⟨_, _, rfl, ⟨_, rfl⟩, rfl, rfl, rfl, rfl⟩

/-! ### Checking a run -/

/-- Some call among those listed with the request is in progress. -/
def liveAmong (cs : List ℕ) (s : State) (req : ReqId) : Bool :=
  decide (∃ c ∈ cs, ∃ call ∈ s.calls c, call.req = req ∧ call.pc.over = false)

/-- What `KeepsAttended` asks, where all calls are among those listed. -/
def keepsAttendedAmong (S : Service) (cs : List ℕ) (s : State) : Action → Bool
  | .call c _ => decide (c ∈ cs)
  | .move c m => decide (∀ call ∈ s.calls c,
    (call.ends S s.shared m = true → liveAmong (cs.filter (· ≠ c)) s call.req ∨
      call.req ∉ s.shared.queue.queue.buffer ∧
        ∀ c' ∈ cs, c' ≠ c → ∀ call' ∈ s.calls c', call'.pc.taken S.retries ≠ some call.req) ∧
    ∀ req ∈ call.puts s.shared m, liveAmong cs s req)
  | _ => true

/-- The calls made are among those listed. -/
def Among (cs : List ℕ) (s : State) : Prop := ∀ c call, s.calls c = some call → c ∈ cs

theorem keepsAttended_of_among {S : Service} {cs : List ℕ} {s : State} {a : Action}
    (hs : Among cs s) (h : keepsAttendedAmong S cs s a = true) :
  KeepsAttended S s a
  := by
  cases a with
  | move c m =>
    intro call hcall
    obtain ⟨hends, hputs⟩ := of_decide_eq_true h call hcall
    constructor
    · intro hended
      obtain hlive | ⟨hunqueued, huntaken⟩ := hends hended
      · obtain ⟨c', hc', call', hcall', hlive⟩ := of_decide_eq_true hlive
        left
        use c', call', of_decide_eq_true (List.mem_filter.mp hc').2, hcall'
      · right
        use hunqueued
        intro c' call' hne hcall'
        apply huntaken c' (hs c' call' hcall') hne call' hcall'
    · intro req hreq
      obtain ⟨c', -, call', hlive⟩ := of_decide_eq_true (hputs req hreq)
      use c', call'
      apply hlive
  | _ => trivial

theorem among_step {S : Service} {cs : List ℕ} {s t : State} {a : Action} (hs : Among cs s)
    (h : keepsAttendedAmong S cs s a = true) (hstep : step S s a = some t) :
  Among cs t
  := by
  intro c call hcall
  obtain ⟨req, rfl, -⟩ | ⟨m, before, sh, -, hbefore, -⟩ | ⟨before, hbefore, -⟩ :=
    step_calls hstep hcall
  · apply of_decide_eq_true h
  · apply hs c before hbefore
  · apply hs c before hbefore

/-- Whether a run of some calls is as `KeepsAttended` says can be checked. -/
theorem meets_keepsAttended (S : Service) (backends : List BackendState) (now : ℤ) (cs : List ℕ)
    {actions : List Action}
    (h : (machine S).Meets (fun s a => keepsAttendedAmong S cs s a = true)
      (State.init S backends now) actions) :
  (machine S).Meets (KeepsAttended S) (State.init S backends now) actions
  := by
  apply h.imp (J := Among cs)
  · intro s a t hs ha hstep
    apply among_step hs ha hstep
  · intro s a hs ha
    apply keepsAttended_of_among hs ha
  · rintro c call ⟨⟩

/-- Two calls queue their requests and each takes its own.  The first attempt of the first call
fails; it tries again when the second call has returned. -/
theorem queued_calls_leave_nothing :
  (machine smallService).Meets SendsLive (State.init smallService [.unhealthy] 0)
      (enqueues 0 0 ++ enqueues 1 1 ++ [.setBackends [.healthy]] ++ takes 0 ++ [fails 0]
        ++ takes 1 ++ [answers 1, .move 0 (.choose .next), .tick 1000000000,
          .move 0 (.choose .elapse), sends 0, answers 0]) ∧
    (machine smallService).Always EmptyWhenIdle (State.init smallService [.unhealthy] 0)
      (enqueues 0 0 ++ enqueues 1 1 ++ [.setBackends [.healthy]] ++ takes 0 ++ [fails 0]
        ++ takes 1 ++ [answers 1, .move 0 (.choose .next), .tick 1000000000,
          .move 0 (.choose .elapse), sends 0, answers 0])
  := by
  apply no_ghost_of_keepsAttended smallService [.unhealthy] 0
  apply meets_keepsAttended smallService [.unhealthy] 0 [0, 1]
  decide +kernel

end Proxy

end VmProxyAuth
