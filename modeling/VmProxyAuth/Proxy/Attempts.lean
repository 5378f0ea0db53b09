import VmProxyAuth.Proxy.Target

/-!
# Attempts

`forwardToBackendDirect` sends a proxy request to one backend after the other until one
answers or the attempts are used up.  All attempts share the body of the request: what an
attempt carries is what the attempts before it have left unread.  What the environment
does at an attempt is given by an `Attempt`; what the loop does to the body, the requests
it issues and the results it reports are collected in a `Trace`.
-/

namespace VmProxyAuth

namespace Proxy

open Http

/-! ### Configuration -/

/-- The configuration of the queue. -/
structure QueueConfig where
  enabled : Bool
  maxSize : ℤ
  timeout : ℤ
  deriving DecidableEq, Repr

/-- The configuration of retries and queueing. -/
structure ReliabilityConfig where
  timeout : ℤ
  retries : ℤ
  backoff : ℤ
  queue : QueueConfig
  deriving DecidableEq, Repr

/-- `QueueConfig.Validate`. -/
def QueueConfig.validate (q : QueueConfig) : Except GoError Unit :=
  if q.enabled then
    if q.maxSize ≤ 0 then
      .error (.errorf "queue max size must be positive when enabled, got %d" [.int q.maxSize])
    else if q.timeout ≤ 0 then
      .error (.errorf "queue timeout must be positive when enabled, got %v" [.duration q.timeout])
    else .ok ()
  else .ok ()

/-- `ReliabilityConfig.Validate`. -/
def ReliabilityConfig.validate (c : ReliabilityConfig) : Except GoError Unit :=
  if c.timeout ≤ 0 then .error (.errorf "timeout must be positive, got %v" [.duration c.timeout])
  else if c.retries < 0 then
    .error (.errorf "retries must be non-negative, got %d" [.int c.retries])
  else if c.backoff < 0 then
    .error (.errorf "backoff must be non-negative, got %v" [.duration c.backoff])
  else c.queue.validate

/-! ### One attempt -/

/-- What comes of sending a request: a transport error, a response whose body cannot be
read, or a response. -/
inductive Reply where
  | failed (err : GoError)
  | unreadable (statusCode : ℕ) (err : GoError)
  | answered (response : ProxyResponse)

/-- What the environment does at an attempt: whether the context is done before the backoff
has passed, which backend is selected, how many bytes of the body sending the request
reads, and what comes of it. -/
structure Attempt where
  cancelled : Bool
  selection : Except GoError GoString
  consumed : ℕ
  reply : Reply

/-- A call of `ReportResult`: the backend, whether there is an error, and the status. -/
structure Report where
  backendURL : GoString
  failed : Bool
  statusCode : ℕ
  deriving DecidableEq, Repr

/-- The body as it stands, the requests issued, each with the body as it stood then, and
the results reported. -/
structure Trace where
  body : Body
  sent : List Request
  reports : List Report

namespace Trace

/-- Before the first attempt. -/
def start (body : Body) : Trace := ⟨body, [], []⟩

/-- `ReportResult`. -/
def reportResult (t : Trace) (backendURL : GoString) (failed : Bool) (statusCode : ℕ) : Trace :=
  { t with reports := t.reports ++ [⟨backendURL, failed, statusCode⟩] }

/-- A request is issued, which reads some of the body and closes it. -/
def issue (t : Trace) (out : Request) (consumed : ℕ) : Trace :=
  { t with
    body := t.body.send consumed
    sent := t.sent ++ [out] }

/-- The bytes carried by the requests issued. -/
def carried (t : Trace) : List GoString := t.sent.map (fun out => out.body.content)

end Trace

/-- `processBackendResponse`. -/
def processBackendResponse (backendURL : GoString) (response : ProxyResponse) (t : Trace) :
    Except GoError ProxyResponse × Trace :=
  if 500 ≤ response.statusCode then
    (.error (.errorf "upstream returned server error status: %d" [.int response.statusCode]),
      t.reportResult backendURL true response.statusCode)
  else (.ok response, t.reportResult backendURL false response.statusCode)

/-- `executeBackendRequest` once the request has been issued. -/
def processReply (backendURL : GoString) (reply : Reply) (t : Trace) :
    Except GoError ProxyResponse × Trace :=
  match reply with
  | .failed err =>
    (.error (.wrapf "backend request failed: %w" [] err), t.reportResult backendURL true 0)
  | .unreadable statusCode err =>
    (.error (.wrapf "failed to read response body: %w" [] err),
      t.reportResult backendURL true statusCode)
  | .answered response => processBackendResponse backendURL response t

/-- `executeBackendRequest`. -/
def executeBackendRequest (backendURL : GoString) (out : Request) (a : Attempt) (t : Trace) :
    Except GoError ProxyResponse × Trace :=
  processReply backendURL a.reply (t.issue out a.consumed)

/-- `forwardToBackend`. -/
def forwardToBackend (urlParse : GoString → Except GoError URL) (req : ProxyRequest)
    (a : Attempt) (t : Trace) : Except GoError ProxyResponse × Trace :=
  match a.selection with
  | .error err => (.error (.wrapf "no available backend: %w" [] err), t)
  | .ok backendURL =>
    match createBackendRequest urlParse (withBody req t.body) backendURL with
    | .error err => (.error err, t.reportResult backendURL true 0)
    | .ok out => executeBackendRequest backendURL out a t

/-! ### The retry loop -/

/-- How a call ends: it returns, or it panics. -/
inductive Outcome where
  | returned (result : Except GoError ProxyResponse)
  | panicked

/-- The loop of `forwardToBackendDirect` from an attempt on, with the number of attempts
that remain.  After the last attempt the text of the last error is logged, which panics if
there was no attempt. -/
def attemptLoop (urlParse : GoString → Except GoError URL) (retries : ℤ) (req : ProxyRequest)
    (attempts : ℕ → Attempt) :
    (remaining attempt : ℕ) → Option GoError → Trace → Outcome × Trace
  | 0, _, none, t => (.panicked, t)
  | 0, _, some lastErr, t =>
    (.returned (.error (.wrapf "request failed after %d attempts: %w" [.int retries] lastErr)), t)
  | remaining + 1, attempt, _, t =>
    if 0 < attempt ∧ (attempts attempt).cancelled then
      (.returned (.error (.library "context")), t)
    else
      match forwardToBackend urlParse req (attempts attempt) t with
      | (.ok response, t) => (.returned (.ok response), t)
      | (.error err, t) =>
        attemptLoop urlParse retries req attempts remaining (attempt + 1) (some err) t

/-- `forwardToBackendDirect`. -/
def forwardToBackendDirect (urlParse : GoString → Except GoError URL) (retries : ℤ)
    (req : ProxyRequest) (attempts : ℕ → Attempt) (t : Trace) : Outcome × Trace :=
  attemptLoop urlParse retries req attempts retries.toNat 0 none t

/-- The calls of `forwardToBackendDirect` with the same proxy request: the direct one and the
later ones with the request taken from the queue. -/
def forwardAgain (urlParse : GoString → Except GoError URL) (retries : ℤ) (req : ProxyRequest)
    (calls : List (ℕ → Attempt)) (t : Trace) : Trace :=
  calls.foldl (fun t attempts => (forwardToBackendDirect urlParse retries req attempts t).2) t

/-! ### The requests issued -/

/-- Whether a backend request can be built, which does not depend on the body. -/
def buildable (urlParse : GoString → Except GoError URL) (req : ProxyRequest)
    (backendURL : GoString) : Bool :=
  (createBackendRequest urlParse req backendURL).isOk

/-- Whether a request is issued at an attempt that is made: a backend is selected and the
request for it can be built. -/
def Attempt.issues (urlParse : GoString → Except GoError URL) (req : ProxyRequest) (a : Attempt) :
    Bool :=
  match a.selection with
  | .error _ => false
  | .ok backendURL => buildable urlParse req backendURL

/-- Whether a reply is a response with a status below 500. -/
def Reply.succeeds : Reply → Bool
  | .answered response => decide (response.statusCode < 500)
  | _ => false

/-- The numbers of bytes read by the requests issued from an attempt on.  The attempts end
with the first response with a status below 500, with the context, or when they are used
up. -/
def issuedFrom (urlParse : GoString → Except GoError URL) (req : ProxyRequest)
    (attempts : ℕ → Attempt) : (remaining attempt : ℕ) → List ℕ
  | 0, _ => []
  | remaining + 1, attempt =>
    let a := attempts attempt
    if 0 < attempt ∧ a.cancelled then []
    else if a.issues urlParse req then
      a.consumed ::
        if a.reply.succeeds then [] else issuedFrom urlParse req attempts remaining (attempt + 1)
    else issuedFrom urlParse req attempts remaining (attempt + 1)

/-- The numbers of bytes read by the requests issued in calls with the same proxy request. -/
def issued (urlParse : GoString → Except GoError URL) (retries : ℤ) (req : ProxyRequest)
    (calls : List (ℕ → Attempt)) : List ℕ :=
  calls.flatMap (fun attempts => issuedFrom urlParse req attempts retries.toNat 0)

theorem issued_cons (urlParse : GoString → Except GoError URL) (retries : ℤ) (req : ProxyRequest)
    (attempts : ℕ → Attempt) (calls : List (ℕ → Attempt)) :
  issued urlParse retries req (attempts :: calls)
    = issuedFrom urlParse req attempts retries.toNat 0 ++ issued urlParse retries req calls
  := rfl

/-- A backend request is built in the same way whatever the body is. -/
theorem createBackendRequest_withBody (urlParse : GoString → Except GoError URL)
    (req : ProxyRequest) (body : Body) (backendURL : GoString) :
  createBackendRequest urlParse (withBody req body) backendURL
    = (createBackendRequest urlParse req backendURL).map (fun out => { out with body := body })
  := by
  have htarget : buildTargetURL urlParse (withBody req body) backendURL
      = buildTargetURL urlParse req backendURL := rfl
  rw [createBackendRequest, createBackendRequest, htarget]
  cases buildTargetURL urlParse req backendURL with
  | error err => rfl
  | ok targetURL =>
    have hnew := newRequest_body req.originalRequest.method targetURL req.originalRequest.body body
    simp only [withBody, hnew]
    cases newRequest req.originalRequest.method targetURL req.originalRequest.body with
    | none => rfl
    | some httpReq => rfl

section

variable {urlParse : GoString → Except GoError URL} {req : ProxyRequest} {a : Attempt} {t : Trace}

/-- At an attempt without a request the body stays as it is. -/
theorem forwardToBackend_of_not_issues (h : a.issues urlParse req = false) :
  ∃ err t', forwardToBackend urlParse req a t = (.error err, t') ∧
    t'.body = t.body ∧ t'.carried = t.carried
  := by
  rw [forwardToBackend]
  rw [Attempt.issues] at h
  cases hselection : a.selection with
  | error err => exact ⟨_, _, rfl, rfl, rfl⟩
  | ok backendURL =>
    rw [hselection] at h
    cases hcreate : createBackendRequest urlParse req backendURL with
    | error err =>
      simp only [createBackendRequest_withBody, hcreate]
      exact ⟨_, _, rfl, rfl, rfl⟩
    | ok out =>
      simp only [buildable, hcreate] at h
      cases h

/-- What comes of a reply. -/
theorem processReply_spec (backendURL : GoString) (reply : Reply) (t : Trace) :
  ∃ t', t'.body = t.body ∧ t'.sent = t.sent ∧
    (reply.succeeds = true ∧ (∃ response, processReply backendURL reply t = (.ok response, t')) ∨
      reply.succeeds = false ∧ ∃ err, processReply backendURL reply t = (.error err, t'))
  := by
  rw [processReply.eq_def]
  cases reply with
  | failed err =>
    use t.reportResult backendURL true 0, rfl, rfl
    apply Or.inr ⟨rfl, _, rfl⟩
  | unreadable statusCode err =>
    use t.reportResult backendURL true statusCode, rfl, rfl
    apply Or.inr ⟨rfl, _, rfl⟩
  | answered response =>
    simp only [processBackendResponse, Reply.succeeds]
    split
    · rename_i hstatus
      rw [decide_eq_false (Nat.not_lt.mpr hstatus)]
      use t.reportResult backendURL true response.statusCode, rfl, rfl
      apply Or.inr ⟨rfl, _, rfl⟩
    · rename_i hstatus
      rw [decide_eq_true (Nat.not_le.mp hstatus)]
      use t.reportResult backendURL false response.statusCode, rfl, rfl
      apply Or.inl ⟨rfl, _, rfl⟩

/-- The outcome of a request that is issued. -/
theorem executeBackendRequest_spec (a : Attempt) (t : Trace) (backendURL : GoString)
    (out : Request) :
  ∃ t', t'.body = t.body.send a.consumed ∧ t'.sent = t.sent ++ [out] ∧
    (a.reply.succeeds = true ∧
        (∃ response, executeBackendRequest backendURL out a t = (.ok response, t')) ∨
      a.reply.succeeds = false ∧
        ∃ err, executeBackendRequest backendURL out a t = (.error err, t'))
  := processReply_spec backendURL a.reply (t.issue out a.consumed)

/-- A request that is issued carries what the body still holds. -/
theorem forwardToBackend_of_issues (h : a.issues urlParse req = true) :
  ∃ t', t'.body = t.body.send a.consumed ∧ t'.carried = t.carried ++ [t.body.content] ∧
    (a.reply.succeeds = true ∧
        (∃ response, forwardToBackend urlParse req a t = (.ok response, t')) ∨
      a.reply.succeeds = false ∧
        ∃ err, forwardToBackend urlParse req a t = (.error err, t'))
  := by
  rw [Attempt.issues] at h
  rw [forwardToBackend]
  cases hselection : a.selection with
  | error err =>
    rw [hselection] at h
    cases h
  | ok backendURL =>
    rw [hselection] at h
    cases hcreate : createBackendRequest urlParse req backendURL with
    | error err =>
      simp only [buildable, hcreate] at h
      cases h
    | ok out =>
      simp only [createBackendRequest_withBody, hcreate, Except.map]
      obtain ⟨t', hbody, hsent, hresult⟩ :=
        executeBackendRequest_spec a t backendURL { out with body := t.body }
      use t', hbody
      rw [Trace.carried, hsent, List.map_append]
      use rfl

end

/-- From any attempt on, the loop issues the requests of `issuedFrom` with the body as it
stands. -/
theorem attemptLoop_spec (urlParse : GoString → Except GoError URL) (retries : ℤ)
    (req : ProxyRequest) (attempts : ℕ → Attempt) (remaining attempt : ℕ)
    (lastErr : Option GoError) (t : Trace) :
  (attemptLoop urlParse retries req attempts remaining attempt lastErr t).2.carried
      = t.carried ++ t.body.carried (issuedFrom urlParse req attempts remaining attempt) ∧
    (attemptLoop urlParse retries req attempts remaining attempt lastErr t).2.body
      = t.body.sendAll (issuedFrom urlParse req attempts remaining attempt)
  := by
  induction remaining generalizing attempt lastErr t with
  | zero =>
    cases lastErr with
    | none => simp [attemptLoop, issuedFrom, Body.carried, Body.sendAll]
    | some err => simp [attemptLoop, issuedFrom, Body.carried, Body.sendAll]
  | succ remaining ih =>
    rw [attemptLoop, issuedFrom]
    split
    · simp [Body.carried, Body.sendAll]
    · cases hissues : (attempts attempt).issues urlParse req with
      | false =>
        obtain ⟨err, t', hforward, hbody, hcarried⟩ :=
          forwardToBackend_of_not_issues (t := t) hissues
        rw [hforward, if_neg Bool.false_ne_true]
        dsimp only
        rw [(ih _ _ _).1, (ih _ _ _).2, hbody, hcarried]
        exact ⟨rfl, rfl⟩
      | true =>
        obtain ⟨t', hbody, hcarried, hresult⟩ := forwardToBackend_of_issues (t := t) hissues
        rw [if_pos rfl, Body.carried, Body.sendAll, List.foldl_cons, ← Body.sendAll, ← hbody]
        rcases hresult with ⟨hsucceeds, response, hforward⟩ | ⟨hsucceeds, err, hforward⟩
        · rw [hforward, hsucceeds, if_pos rfl]
          dsimp only
          rw [hcarried]
          exact ⟨rfl, rfl⟩
        · rw [hforward, hsucceeds, if_neg Bool.false_ne_true]
          dsimp only
          rw [(ih _ _ _).1, (ih _ _ _).2, hcarried, List.append_assoc]
          exact ⟨rfl, rfl⟩

/-- Calls with the same proxy request issue the requests of `issued` with the body as it
stands. -/
theorem forwardAgain_spec (urlParse : GoString → Except GoError URL) (retries : ℤ)
    (req : ProxyRequest) (calls : List (ℕ → Attempt)) (t : Trace) :
  (forwardAgain urlParse retries req calls t).carried
    = t.carried ++ t.body.carried (issued urlParse retries req calls)
  := by
  induction calls generalizing t with
  | nil => simp [forwardAgain, issued, Body.carried]
  | cons attempts calls ih =>
    obtain ⟨hcarried, hbody⟩ :=
      attemptLoop_spec urlParse retries req attempts retries.toNat 0 none t
    rw [forwardAgain, List.foldl_cons, ← forwardAgain, ih, issued_cons, forwardToBackendDirect,
      hcarried, hbody, Body.carried_append, List.append_assoc]

end Proxy

end VmProxyAuth
