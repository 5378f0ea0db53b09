import VmProxyAuth.Lib.Machine
import VmProxyAuth.Proxy.Attempts
import VmProxyAuth.Proxy.Queue

/-!
# Forwarding step by step

A call of `forwardToBackendDirect` takes its time: it waits before every attempt but the first,
sends a request, and waits for the reply.  Here it is given by its atomic steps, between which
other calls may take steps.  A call that nothing comes between ends as `forwardToBackendDirect`
does (`exists_run_forward_iff`).
-/

namespace VmProxyAuth

namespace Proxy

open Http Queue

/-- A step of a call: the next statement or a case of a `select`, the sending of a request, or
the reply to it. -/
inductive Move where
  | choose (choice : Choice)
  | send (selection : Except GoError GoString) (consumed : ℕ)
  | reply (reply : Reply)

/-- Where a call of `forwardToBackendDirect` stands. -/
inductive ForwardPc where
  | loop (attempt : ℕ) (lastErr : Option GoError)
  | backoff (attempt : ℕ) (wake : ℤ)
  | send (attempt : ℕ)
  | await (attempt : ℕ) (backendURL : GoString)
  | ended (outcome : Outcome)

/-- `forwardToBackend` until the request has been issued. -/
def issueRequest (urlParse : GoString → Except GoError URL) (req : ProxyRequest)
    (selection : Except GoError GoString) (consumed : ℕ) (t : Trace) :
    Except GoError GoString × Trace :=
  match selection with
  | .error err => (.error (.wrapf "no available backend: %w" [] err), t)
  | .ok backendURL =>
    match createBackendRequest urlParse (withBody req t.body) backendURL with
    | .error err => (.error err, t.reportResult backendURL true 0)
    | .ok out => (.ok backendURL, t.issue out consumed)

/-- `forwardToBackend` issues a request and processes the reply to it. -/
theorem forwardToBackend_eq_bind (urlParse : GoString → Except GoError URL) (req : ProxyRequest)
    (a : Attempt) (t : Trace) :
  forwardToBackend urlParse req a t
    = match (issueRequest urlParse req a.selection a.consumed t).1 with
      | .ok backendURL => processReply backendURL a.reply
          (issueRequest urlParse req a.selection a.consumed t).2
      | .error err => (.error err, (issueRequest urlParse req a.selection a.consumed t).2)
  := by
  rw [forwardToBackend, issueRequest.eq_def]
  cases a.selection with
  | error err => rfl
  | ok backendURL =>
    dsimp only
    cases createBackendRequest urlParse (withBody req t.body) backendURL with
    | error err => rfl
    | ok out => rfl

section

variable (urlParse : GoString → Except GoError URL) (retries backoff : ℤ) (req : ProxyRequest)

/-- Where the loop goes from its head at a time: to the next attempt, at once or after the
backoff, or to its end.  There the text of the last error is logged, which panics if there was no
attempt. -/
def loopNext (now : ℤ) (attempt : ℕ) (lastErr : Option GoError) : ForwardPc :=
  if attempt < retries.toNat then
    if attempt = 0 then .send attempt else .backoff attempt (now + attempt * backoff)
  else
    match lastErr with
    | none => .ended .panicked
    | some err => .ended (.returned (.error
        (.wrapf "request failed after %d attempts: %w" [.int retries] err)))

/-- Where a call stands once a request has been issued, or could not be. -/
def afterIssue (attempt : ℕ) : Except GoError GoString → ForwardPc
  | .ok backendURL => .await attempt backendURL
  | .error err => .loop (attempt + 1) (some err)

/-- Where a call stands after the reply to its request. -/
def afterReply (attempt : ℕ) : Except GoError ProxyResponse → ForwardPc
  | .ok response => .ended (.returned (.ok response))
  | .error err => .loop (attempt + 1) (some err)

/-- A step of `forwardToBackendDirect` at a time, where `cancelled` tells whether the context is
done. -/
def forwardStep (now : ℤ) (cancelled : Bool) (t : Trace) :
    ForwardPc → Move → Option (Trace × ForwardPc)
  | .loop attempt lastErr, .choose .next => some (t, loopNext retries backoff now attempt lastErr)
  | .backoff _ _, .choose .ctxDone =>
    if cancelled then some (t, .ended (.returned (.error (.library "context")))) else none
  | .backoff attempt wake, .choose .elapse =>
    if wake ≤ now then some (t, .send attempt) else none
  | .send attempt, .send selection consumed =>
    let r := issueRequest urlParse req selection consumed t
    some (r.2, afterIssue attempt r.1)
  | .await attempt backendURL, .reply reply =>
    let r := processReply backendURL reply t
    some (r.2, afterReply attempt r.1)
  | _, _ => none

/-- The steps of one call that nothing comes between, each at a time of its own. -/
def forwardMachine : Machine (Trace × ForwardPc) (ℤ × Bool × Move) where
  step s a := forwardStep urlParse retries backoff req a.1 a.2.1 s.1 s.2 a.2.2

/-! ### The steps and the loop -/

/-- How the loop goes on from the result of an attempt. -/
def continueLoop (attempts : ℕ → Attempt) (remaining attempt : ℕ) :
    Except GoError ProxyResponse × Trace → Outcome × Trace
  | (.ok response, t) => (.returned (.ok response), t)
  | (.error err, t) =>
    attemptLoop urlParse retries req attempts remaining (attempt + 1) (some err) t

variable {urlParse retries backoff req}

theorem attemptLoop_succ (attempts : ℕ → Attempt) (remaining attempt : ℕ)
    (lastErr : Option GoError) (t : Trace) :
  attemptLoop urlParse retries req attempts (remaining + 1) attempt lastErr t
    = if 0 < attempt ∧ (attempts attempt).cancelled then
        (.returned (.error (.library "context")), t)
      else continueLoop urlParse retries req attempts remaining attempt
        (forwardToBackend urlParse req (attempts attempt) t)
  := by
  rw [attemptLoop]
  congr 1

/-- From an attempt on, the loop depends on the attempts that are left. -/
theorem attemptLoop_congr {attempts attempts' : ℕ → Attempt} (remaining : ℕ) {attempt : ℕ}
    (lastErr : Option GoError) (t : Trace)
    (h : ∀ k, attempt ≤ k → attempts k = attempts' k) :
  attemptLoop urlParse retries req attempts remaining attempt lastErr t
    = attemptLoop urlParse retries req attempts' remaining attempt lastErr t
  := by
  induction remaining generalizing attempt lastErr t with
  | zero => cases lastErr <;> rfl
  | succ remaining ih =>
    rw [attemptLoop_succ, attemptLoop_succ, h attempt le_rfl]
    congr 1
    cases forwardToBackend urlParse req (attempts' attempt) t with
    | mk result t' =>
      cases result with
      | error err => apply ih _ _ (fun k hk => h k (Nat.le_of_succ_le hk))
      | ok response => rfl

/-- How the loop goes on does not depend on the attempt that was made. -/
theorem continueLoop_update (attempts : ℕ → Attempt) (a : Attempt) (remaining attempt : ℕ)
    (r : Except GoError ProxyResponse × Trace) :
  continueLoop urlParse retries req (Function.update attempts attempt a) remaining attempt r
    = continueLoop urlParse retries req attempts remaining attempt r
  := by
  obtain ⟨err | response, t⟩ := r
  · apply attemptLoop_congr
    intro k hk
    apply Function.update_of_ne
    omega
  · rfl

/-- The attempts a call waits for, makes or has made are among those allowed, and it does not wait
before the first one. -/
def ForwardPc.Sound (retries : ℤ) : ForwardPc → Prop
  | .backoff attempt _ => 0 < attempt ∧ attempt < retries.toNat
  | .send attempt => attempt < retries.toNat
  | .await attempt _ => attempt < retries.toNat
  | _ => True

/-- How a call that has come to a place in the loop may end. -/
def ForwardPc.MayEnd (urlParse : GoString → Except GoError URL) (retries : ℤ) (req : ProxyRequest)
    (t : Trace) (result : Outcome × Trace) : ForwardPc → Prop
  | .loop attempt lastErr => ∃ attempts,
      attemptLoop urlParse retries req attempts (retries.toNat - attempt) attempt lastErr t = result
  | .backoff attempt _ => ∃ attempts,
      attemptLoop urlParse retries req attempts (retries.toNat - attempt) attempt none t = result
  | .send attempt => ∃ attempts,
      continueLoop urlParse retries req attempts (retries.toNat - (attempt + 1)) attempt
        (forwardToBackend urlParse req (attempts attempt) t) = result
  | .await attempt backendURL => ∃ attempts reply,
      continueLoop urlParse retries req attempts (retries.toNat - (attempt + 1)) attempt
        (processReply backendURL reply t) = result
  | .ended outcome => (outcome, t) = result

/-- The loop with an attempt left. -/
theorem attemptLoop_of_lt {attempt : ℕ} (h : attempt < retries.toNat) (attempts : ℕ → Attempt)
    (lastErr : Option GoError) (t : Trace) :
  attemptLoop urlParse retries req attempts (retries.toNat - attempt) attempt lastErr t
    = if 0 < attempt ∧ (attempts attempt).cancelled then
        (.returned (.error (.library "context")), t)
      else continueLoop urlParse retries req attempts (retries.toNat - (attempt + 1)) attempt
        (forwardToBackend urlParse req (attempts attempt) t)
  := by
  rw [← attemptLoop_succ _ _ _ lastErr]
  congr 1
  omega

section

variable {now : ℤ} {cancelled : Bool} {t t' : Trace} {pc pc' : ForwardPc} {m : Move}
  {result : Outcome × Trace}

theorem sound_loopNext (attempt : ℕ) (lastErr : Option GoError) :
  (loopNext retries backoff now attempt lastErr).Sound retries
  := by
  rw [loopNext.eq_def]
  split
  · rename_i hlt
    split
    · apply hlt
    · rename_i hne
      use Nat.pos_of_ne_zero hne
  · split
    · trivial
    · trivial

theorem sound_afterIssue {attempt : ℕ} (h : attempt < retries.toNat)
    (issued : Except GoError GoString) :
  (afterIssue attempt issued).Sound retries
  := by
  cases issued with
  | error err => trivial
  | ok backendURL => apply h

theorem sound_afterReply (attempt : ℕ) (result : Except GoError ProxyResponse) :
  (afterReply attempt result).Sound retries
  := by
  cases result with
  | error err => trivial
  | ok response => trivial

theorem sound_forwardStep (hpc : pc.Sound retries)
    (h : forwardStep urlParse retries backoff req now cancelled t pc m = some (t', pc')) :
  pc'.Sound retries
  := by
  rw [forwardStep.eq_def] at h
  split at h
  · cases h
    apply sound_loopNext
  · obtain ⟨-, ⟨⟩⟩ := Option.ite_none_right_eq_some.mp h
    trivial
  · obtain ⟨-, ⟨⟩⟩ := Option.ite_none_right_eq_some.mp h
    apply hpc.2
  · cases h
    apply sound_afterIssue hpc
  · cases h
    apply sound_afterReply
  · cases h

/-- From the head of the loop. -/
theorem mayEnd_loop {attempt : ℕ} {lastErr : Option GoError}
    (h : (loopNext retries backoff now attempt lastErr).MayEnd urlParse retries req t result) :
  (ForwardPc.loop attempt lastErr).MayEnd urlParse retries req t result
  := by
  rw [loopNext.eq_def] at h
  split at h
  · rename_i hlt
    split at h
    · rename_i hfirst
      obtain ⟨attempts, rfl⟩ := h
      use attempts
      rw [attemptLoop_of_lt hlt, if_neg]
      rintro ⟨hpos, -⟩
      omega
    · obtain ⟨attempts, rfl⟩ := h
      use attempts
      rw [attemptLoop_of_lt hlt, attemptLoop_of_lt hlt]
  · rename_i hnot
    have hnone : retries.toNat - attempt = 0 := by omega
    use fun _ => ⟨true, .error (.library ""), 0, .failed (.library "")⟩
    rw [hnone]
    split at h
    · apply h
    · apply h

/-- From the sending of a request. -/
theorem mayEnd_send {attempt consumed : ℕ} {selection : Except GoError GoString}
    (h : (afterIssue attempt (issueRequest urlParse req selection consumed t).1).MayEnd urlParse
      retries req (issueRequest urlParse req selection consumed t).2 result) :
  (ForwardPc.send attempt).MayEnd urlParse retries req t result
  := by
  cases hissued : (issueRequest urlParse req selection consumed t).1 with
  | ok backendURL =>
    rw [hissued] at h
    obtain ⟨attempts, reply, rfl⟩ := h
    use Function.update attempts attempt ⟨false, selection, consumed, reply⟩
    rw [continueLoop_update, Function.update_self, forwardToBackend_eq_bind]
    dsimp only
    rw [hissued]
  | error err =>
    rw [hissued] at h
    obtain ⟨attempts, rfl⟩ := h
    use Function.update attempts attempt ⟨false, selection, consumed, .failed err⟩
    rw [continueLoop_update, Function.update_self, forwardToBackend_eq_bind]
    dsimp only
    rw [hissued]
    rfl

/-- From the reply to a request. -/
theorem mayEnd_await {attempt : ℕ} {backendURL : GoString} {reply : Reply}
    (h : (afterReply attempt (processReply backendURL reply t).1).MayEnd urlParse retries req
      (processReply backendURL reply t).2 result) :
  (ForwardPc.await attempt backendURL).MayEnd urlParse retries req t result
  := by
  cases hreply : processReply backendURL reply t with
  | mk outcome t₁ =>
    rw [hreply] at h
    cases outcome with
    | ok response =>
      use fun _ => ⟨false, .ok backendURL, 0, reply⟩, reply
      rw [hreply]
      apply h
    | error err =>
      obtain ⟨attempts, rfl⟩ := h
      use attempts, reply
      rw [hreply]
      rfl

/-- What a call may come to after a step it may come to before. -/
theorem mayEnd_forwardStep (hpc : pc.Sound retries)
    (h : forwardStep urlParse retries backoff req now cancelled t pc m = some (t', pc'))
    (hend : pc'.MayEnd urlParse retries req t' result) :
  pc.MayEnd urlParse retries req t result
  := by
  rw [forwardStep.eq_def] at h
  split at h
  · cases h
    apply mayEnd_loop hend
  · obtain ⟨-, ⟨⟩⟩ := Option.ite_none_right_eq_some.mp h
    use fun _ => ⟨true, .error (.library ""), 0, .failed (.library "")⟩
    rw [attemptLoop_of_lt hpc.2, if_pos ⟨hpc.1, rfl⟩]
    apply hend
  · rename_i attempt wake
    obtain ⟨-, ⟨⟩⟩ := Option.ite_none_right_eq_some.mp h
    obtain ⟨attempts, rfl⟩ := hend
    use Function.update attempts attempt { attempts attempt with cancelled := false }
    rw [attemptLoop_of_lt hpc.2, Function.update_self, if_neg (by simp), continueLoop_update]
    rfl
  · cases h
    apply mayEnd_send hend
  · cases h
    apply mayEnd_await hend
  · cases h

/-- A run to the end comes to what the place it starts from may come to. -/
theorem mayEnd_of_run {actions : List (ℤ × Bool × Move)} {outcome : Outcome}
    (hpc : pc.Sound retries)
    (h : (forwardMachine urlParse retries backoff req).run (t, pc) actions
      = some (t', .ended outcome)) :
  pc.MayEnd urlParse retries req t (outcome, t')
  := by
  induction actions generalizing t pc with
  | nil =>
    cases h
    rfl
  | cons a actions ih =>
    obtain ⟨⟨u, mid⟩, hstep, hrest⟩ := (forwardMachine urlParse retries backoff req).run_cons.mp h
    apply mayEnd_forwardStep hpc hstep
    apply ih (sound_forwardStep hpc hstep) hrest

end

variable (backoff)

/-- Some run from a place in the loop has a result. -/
def Runs (urlParse : GoString → Except GoError URL) (retries backoff : ℤ) (req : ProxyRequest)
    (t : Trace) (pc : ForwardPc) (result : Outcome × Trace) : Prop :=
  ∃ actions, (forwardMachine urlParse retries backoff req).run (t, pc) actions
    = some (result.2, .ended result.1)

variable {backoff}

theorem Runs.cons {t t' : Trace} {pc pc' : ForwardPc} {result : Outcome × Trace} (now : ℤ)
    (cancelled : Bool) (m : Move)
    (h : forwardStep urlParse retries backoff req now cancelled t pc m = some (t', pc'))
    (hrest : Runs urlParse retries backoff req t' pc' result) :
  Runs urlParse retries backoff req t pc result
  := by
  obtain ⟨actions, hactions⟩ := hrest
  use (now, cancelled, m) :: actions
  apply (forwardMachine urlParse retries backoff req).run_cons.mpr
  use (t', pc'), h

theorem runs_ended (t : Trace) (outcome : Outcome) :
  Runs urlParse retries backoff req t (.ended outcome) (outcome, t)
  := by
  use []
  rfl

/-- An attempt is sent and answered. -/
theorem runs_send {attempts : ℕ → Attempt} {remaining attempt : ℕ} (t : Trace)
    (hlater : ∀ lastErr t, Runs urlParse retries backoff req t (.loop (attempt + 1) lastErr)
      (attemptLoop urlParse retries req attempts remaining (attempt + 1) lastErr t)) :
  Runs urlParse retries backoff req t (.send attempt)
    (continueLoop urlParse retries req attempts remaining attempt
      (forwardToBackend urlParse req (attempts attempt) t))
  := by
  apply Runs.cons 0 false (.send (attempts attempt).selection (attempts attempt).consumed) rfl
  rw [forwardToBackend_eq_bind]
  cases (issueRequest urlParse req (attempts attempt).selection
      (attempts attempt).consumed t).1 with
  | error err => apply hlater
  | ok backendURL =>
    apply Runs.cons 0 false (.reply (attempts attempt).reply) rfl
    dsimp only
    cases processReply backendURL (attempts attempt).reply
        (issueRequest urlParse req (attempts attempt).selection
          (attempts attempt).consumed t).2 with
    | mk result t' =>
      cases result with
      | error err => apply hlater
      | ok response => apply runs_ended

/-- Before an attempt that is not the first, the call waits. -/
theorem runs_backoff {attempts : ℕ → Attempt} {remaining attempt : ℕ}
    (lastErr : Option GoError) (t : Trace) (wake : ℤ)
    (hsend : Runs urlParse retries backoff req t (.send attempt)
      (continueLoop urlParse retries req attempts remaining attempt
        (forwardToBackend urlParse req (attempts attempt) t))) :
  Runs urlParse retries backoff req t (.backoff attempt wake)
    (attemptLoop urlParse retries req attempts (remaining + 1) attempt lastErr t)
  := by
  have hdone : forwardStep urlParse retries backoff req 0 true t (.backoff attempt wake)
      (.choose .ctxDone) = some (t, .ended (.returned (.error (.library "context")))) := rfl
  have hpassed : forwardStep urlParse retries backoff req wake false t (.backoff attempt wake)
      (.choose .elapse) = some (t, .send attempt) := if_pos le_rfl
  rw [attemptLoop_succ]
  split
  · apply Runs.cons 0 true (.choose .ctxDone) hdone
    apply runs_ended
  · apply Runs.cons wake false (.choose .elapse) hpassed hsend

/-- The loop ends as some run from its head does. -/
theorem runs_loop (attempts : ℕ → Attempt) (remaining attempt : ℕ)
    (hattempt : attempt + remaining = retries.toNat) (lastErr : Option GoError) (t : Trace) :
  Runs urlParse retries backoff req t (.loop attempt lastErr)
    (attemptLoop urlParse retries req attempts remaining attempt lastErr t)
  := by
  induction remaining generalizing attempt lastErr t with
  | zero =>
    apply Runs.cons 0 false (.choose .next) rfl
    rw [loopNext.eq_def, if_neg (by omega)]
    cases lastErr with
    | none => apply runs_ended
    | some err => apply runs_ended
  | succ remaining ih =>
    have hsend := runs_send t (ih (attempt + 1) (by omega))
    apply Runs.cons 0 false (.choose .next) rfl
    rw [loopNext.eq_def, if_pos (by omega)]
    split
    · rename_i hfirst
      rw [attemptLoop_succ, if_neg (by omega)]
      apply hsend
    · apply runs_backoff _ _ _ hsend

/-- A call that nothing comes between ends exactly as `forwardToBackendDirect` does. -/
theorem exists_run_forward_iff (t t' : Trace) (outcome : Outcome) :
  (∃ actions, (forwardMachine urlParse retries backoff req).run (t, .loop 0 none) actions
      = some (t', .ended outcome)) ↔
    ∃ attempts, forwardToBackendDirect urlParse retries req attempts t = (outcome, t')
  := by
  constructor
  · rintro ⟨actions, hrun⟩
    have hsound : (ForwardPc.loop 0 none).Sound retries := trivial
    apply mayEnd_of_run hsound hrun
  · rintro ⟨attempts, h⟩
    have hruns : Runs urlParse retries backoff req t (.loop 0 none) _ :=
      runs_loop attempts retries.toNat 0 (Nat.zero_add _) none t
    rw [← forwardToBackendDirect, h] at hruns
    apply hruns

end

end Proxy

end VmProxyAuth
