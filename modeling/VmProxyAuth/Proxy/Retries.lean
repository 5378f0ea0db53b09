import VmProxyAuth.Proxy.Delivery

/-!
# Retries

What a call of `forwardToBackendDirect` comes to, compared with the sequence of all the
attempts that could be made: `resultOf` is the result of each attempt when the ones before
it have been made as well, `traceAfter` the trace they leave, and `attemptsMade` the number
of attempts the loop makes.  Every backend that is selected is reported once, and unless
there is no attempt at all the loop returns the first response or wraps the last error.
-/

namespace VmProxyAuth

/-- `cause` is the error that `err` wraps. -/
def GoError.Wraps (err cause : GoError) : Prop :=
  ∃ format args, err = .wrapf format args cause

namespace Proxy

open Http

/-! ### The sequence of attempts -/

section

variable (urlParse : GoString → Except GoError URL) (req : ProxyRequest)
  (attempts : ℕ → Attempt) (t : Trace)

/-- The trace after the first attempts, each made whatever the ones before it gave. -/
def traceAfter : ℕ → Trace
  | 0 => t
  | k + 1 => (forwardToBackend urlParse req (attempts k) (traceAfter k)).2

/-- The result of an attempt after the ones before it. -/
def resultOf (k : ℕ) : Except GoError ProxyResponse :=
  (forwardToBackend urlParse req (attempts k) (traceAfter urlParse req attempts t k)).1

/-- The error of the last of the first attempts. -/
def lastError : ℕ → Option GoError
  | 0 => none
  | k + 1 =>
    match resultOf urlParse req attempts t k with
    | .ok _ => none
    | .error err => some err

/-- The attempt fails. -/
def Fails (k : ℕ) : Prop := ∃ err, resultOf urlParse req attempts t k = .error err

/-- The number of attempts the loop makes from an attempt on. -/
def attemptsMade : (remaining attempt : ℕ) → ℕ
  | 0, _ => 0
  | remaining + 1, attempt =>
    if 0 < attempt ∧ (attempts attempt).cancelled then 0
    else
      match resultOf urlParse req attempts t attempt with
      | .ok _ => 1
      | .error _ => attemptsMade remaining (attempt + 1) + 1

end

section

variable {urlParse : GoString → Except GoError URL} {req : ProxyRequest}
  {attempts : ℕ → Attempt} {t : Trace}

theorem forwardToBackend_eq (k : ℕ) :
  forwardToBackend urlParse req (attempts k) (traceAfter urlParse req attempts t k)
    = (resultOf urlParse req attempts t k, traceAfter urlParse req attempts t (k + 1))
  := rfl

/-- An attempt with a response ends the loop. -/
theorem attemptLoop_of_ok {retries : ℤ} {remaining attempt : ℕ} {lastErr : Option GoError}
    {response : ProxyResponse} (hactive : ¬ (0 < attempt ∧ (attempts attempt).cancelled))
    (hresult : resultOf urlParse req attempts t attempt = .ok response) :
  attemptLoop urlParse retries req attempts (remaining + 1) attempt lastErr
      (traceAfter urlParse req attempts t attempt)
    = (.returned (.ok response), traceAfter urlParse req attempts t (attempt + 1))
  := by
  rw [attemptLoop, if_neg hactive, forwardToBackend_eq, hresult]

/-- An attempt that fails leaves the loop to the attempts after it. -/
theorem attemptLoop_of_error {retries : ℤ} {remaining attempt : ℕ} {lastErr : Option GoError}
    {err : GoError} (hactive : ¬ (0 < attempt ∧ (attempts attempt).cancelled))
    (hresult : resultOf urlParse req attempts t attempt = .error err) :
  attemptLoop urlParse retries req attempts (remaining + 1) attempt lastErr
      (traceAfter urlParse req attempts t attempt)
    = attemptLoop urlParse retries req attempts remaining (attempt + 1) (some err)
        (traceAfter urlParse req attempts t (attempt + 1))
  := by
  rw [attemptLoop, if_neg hactive, forwardToBackend_eq, hresult]

variable (urlParse req attempts t) in
/-- The trace the loop leaves is the one after the attempts it makes. -/
theorem attemptLoop_trace (retries : ℤ) (remaining attempt : ℕ) (lastErr : Option GoError) :
  (attemptLoop urlParse retries req attempts remaining attempt lastErr
      (traceAfter urlParse req attempts t attempt)).2
    = traceAfter urlParse req attempts t
        (attempt + attemptsMade urlParse req attempts t remaining attempt)
  := by
  induction remaining generalizing attempt lastErr with
  | zero =>
    cases lastErr with
    | none => rfl
    | some err => rfl
  | succ remaining ih =>
    rw [attemptsMade]
    split
    · rename_i hcancelled
      rw [attemptLoop, if_pos hcancelled]
      rfl
    · rename_i hactive
      cases hresult : resultOf urlParse req attempts t attempt with
      | ok response =>
        rw [attemptLoop_of_ok hactive hresult]
      | error err =>
        rw [attemptLoop_of_error hactive hresult, ih]
        dsimp only
        congr 1
        omega

end

/-! ### Reports -/

/-- The backends an attempt selects: one, or none if the selection fails. -/
def Attempt.selected (a : Attempt) : List GoString :=
  match a.selection with
  | .ok backendURL => [backendURL]
  | .error _ => []

/-- From `t` to `t'` one result is reported for each of the backends, in order. -/
def Trace.Reports (t t' : Trace) (backends : List GoString) : Prop :=
  ∃ new, t'.reports = t.reports ++ new ∧ new.map Report.backendURL = backends

namespace Trace

theorem Reports.refl (t : Trace) :
  t.Reports t []
  := ⟨[], (List.append_nil _).symm, rfl⟩

theorem Reports.trans {t₁ t₂ t₃ : Trace} {backends backends' : List GoString}
    (h : t₁.Reports t₂ backends) (h' : t₂.Reports t₃ backends') :
  t₁.Reports t₃ (backends ++ backends')
  := by
  obtain ⟨new, hnew, rfl⟩ := h
  obtain ⟨new', hnew', rfl⟩ := h'
  use new ++ new'
  rw [hnew', hnew, List.append_assoc, List.map_append]
  exact ⟨rfl, rfl⟩

theorem reports_reportResult (t : Trace) (backendURL : GoString) (failed : Bool)
    (statusCode : ℕ) :
  t.Reports (t.reportResult backendURL failed statusCode) [backendURL]
  := ⟨_, rfl, rfl⟩

end Trace

theorem reports_executeBackendRequest (backendURL : GoString) (out : Request) (a : Attempt)
    (t : Trace) :
  t.Reports (executeBackendRequest backendURL out a t).2 [backendURL]
  := by
  rw [executeBackendRequest, processReply.eq_def]
  cases a.reply with
  | failed err => exact ⟨_, rfl, rfl⟩
  | unreadable statusCode err => exact ⟨_, rfl, rfl⟩
  | answered response =>
    simp only [processBackendResponse]
    split
    · exact ⟨_, rfl, rfl⟩
    · exact ⟨_, rfl, rfl⟩

/-- An attempt reports the backend it selects, once. -/
theorem reports_forwardToBackend (urlParse : GoString → Except GoError URL) (req : ProxyRequest)
    (a : Attempt) (t : Trace) :
  t.Reports (forwardToBackend urlParse req a t).2 a.selected
  := by
  rw [forwardToBackend, Attempt.selected]
  cases a.selection with
  | error err => apply Trace.Reports.refl
  | ok backendURL =>
    dsimp only
    cases createBackendRequest urlParse (withBody req t.body) backendURL with
    | error err => apply Trace.reports_reportResult
    | ok out => apply reports_executeBackendRequest

/-- The first attempts report the backends they select. -/
theorem reports_traceAfter (urlParse : GoString → Except GoError URL) (req : ProxyRequest)
    (attempts : ℕ → Attempt) (t : Trace) (k : ℕ) :
  t.Reports (traceAfter urlParse req attempts t k)
    ((List.range k).flatMap (fun j => (attempts j).selected))
  := by
  induction k with
  | zero => apply Trace.Reports.refl
  | succ k ih =>
    rw [List.range_succ, List.flatMap_append, List.flatMap_singleton]
    apply ih.trans
    apply reports_forwardToBackend

/-- An execution of `forwardToBackend` reports the backend that was selected, once, and
nothing if the selection failed; a call of `forwardToBackendDirect` reports the backends
selected by the attempts it makes, each once. -/
theorem selections_reported (urlParse : GoString → Except GoError URL) (req : ProxyRequest)
    (t : Trace) :
  (∀ a, t.Reports (forwardToBackend urlParse req a t).2 a.selected) ∧
    ∀ (retries : ℤ) (attempts : ℕ → Attempt),
      t.Reports (forwardToBackendDirect urlParse retries req attempts t).2
        ((List.range (attemptsMade urlParse req attempts t retries.toNat 0)).flatMap
          (fun k => (attempts k).selected))
  := by
  constructor
  · intro a
    apply reports_forwardToBackend
  · intro retries attempts
    have htrace := attemptLoop_trace urlParse req attempts t retries retries.toNat 0 none
    rw [forwardToBackendDirect]
    rw [traceAfter, Nat.zero_add] at htrace
    rw [htrace]
    apply reports_traceAfter

/-! ### Outcomes -/

/-- How a call of `forwardToBackendDirect` should end: after one attempt at least and
`max 1 retries` at most, with the response of the first attempt that has one, or, if none of
the attempts within the bound has one, with an error that wraps the error of the last attempt
made. -/
def EndsWell (urlParse : GoString → Except GoError URL) (retries : ℤ) (req : ProxyRequest)
    (attempts : ℕ → Attempt) (t : Trace) : Prop :=
  ∃ last < max 1 retries.toNat,
    attemptsMade urlParse req attempts t retries.toNat 0 = last + 1 ∧
    (forwardToBackendDirect urlParse retries req attempts t).2
      = traceAfter urlParse req attempts t (last + 1) ∧
    ((∃ response, (∀ k < last, Fails urlParse req attempts t k) ∧
        resultOf urlParse req attempts t last = .ok response ∧
        (forwardToBackendDirect urlParse retries req attempts t).1 = .returned (.ok response)) ∨
      ∃ lastErr err, (∀ k < max 1 retries.toNat, Fails urlParse req attempts t k) ∧
        resultOf urlParse req attempts t last = .error lastErr ∧
        (forwardToBackendDirect urlParse retries req attempts t).1 = .returned (.error err) ∧
        err.Wraps lastErr)

section

variable {urlParse : GoString → Except GoError URL} {req : ProxyRequest}
  {attempts : ℕ → Attempt} {t : Trace}

theorem lastError_of_error {k : ℕ} {err : GoError}
    (hresult : resultOf urlParse req attempts t k = .error err) :
  lastError urlParse req attempts t (k + 1) = some err
  := by
  rw [lastError, hresult]

/-- While the attempts fail the loop goes on, with the error of the last one. -/
theorem attemptLoop_of_fails (hactive : ∀ k, (attempts k).cancelled = false) (retries : ℤ)
    {total k : ℕ} (hk : k ≤ total) (hfails : ∀ j < k, Fails urlParse req attempts t j) :
  attemptLoop urlParse retries req attempts total 0 none t
      = attemptLoop urlParse retries req attempts (total - k) k
          (lastError urlParse req attempts t k) (traceAfter urlParse req attempts t k) ∧
    attemptsMade urlParse req attempts t total 0
      = attemptsMade urlParse req attempts t (total - k) k + k
  := by
  induction k with
  | zero => exact ⟨rfl, rfl⟩
  | succ k ih =>
    obtain ⟨hloop, hmade⟩ := ih (by omega) (fun j hj => hfails j (by omega))
    obtain ⟨err, hresult⟩ := hfails k (by omega)
    have hcurrent : ¬ (0 < k ∧ (attempts k).cancelled) := by
      rw [hactive k]
      simp
    obtain ⟨remaining, hremaining⟩ : ∃ remaining, total - k = remaining + 1 :=
      ⟨total - k - 1, by omega⟩
    have hrest : total - (k + 1) = remaining := by omega
    rw [hloop, hmade, hrest, hremaining, attemptLoop_of_error hcurrent hresult,
      lastError_of_error hresult, attemptsMade, if_neg hcurrent, hresult]
    use rfl
    dsimp only
    omega

/-- The first attempt with a response is the last one made. -/
theorem endsWell_of_ok (hactive : ∀ k, (attempts k).cancelled = false) {retries : ℤ} {k : ℕ}
    (hk : k < retries.toNat) (hfails : ∀ j < k, Fails urlParse req attempts t j)
    {response : ProxyResponse} (hresult : resultOf urlParse req attempts t k = .ok response) :
  EndsWell urlParse retries req attempts t
  := by
  obtain ⟨hloop, hmade⟩ := attemptLoop_of_fails hactive retries hk.le hfails
  have hcurrent : ¬ (0 < k ∧ (attempts k).cancelled) := by
    rw [hactive k]
    simp
  obtain ⟨remaining, hremaining⟩ : ∃ remaining, retries.toNat - k = remaining + 1 :=
    ⟨retries.toNat - k - 1, by omega⟩
  rw [hremaining, attemptLoop_of_ok hcurrent hresult] at hloop
  rw [hremaining, attemptsMade, if_neg hcurrent, hresult] at hmade
  refine ⟨k, by omega, ?_, ?_, Or.inl ⟨response, hfails, hresult, ?_⟩⟩
  · rw [hmade]
    apply Nat.add_comm
  · rw [forwardToBackendDirect, hloop]
  · rw [forwardToBackendDirect, hloop]

/-- When all the attempts fail the last error is wrapped. -/
theorem endsWell_of_fails (hactive : ∀ k, (attempts k).cancelled = false) {retries : ℤ}
    (hretries : 1 ≤ retries.toNat)
    (hfails : ∀ j < retries.toNat, Fails urlParse req attempts t j) :
  EndsWell urlParse retries req attempts t
  := by
  obtain ⟨hloop, hmade⟩ := attemptLoop_of_fails hactive retries (le_refl _) hfails
  obtain ⟨last, hlast⟩ : ∃ last, retries.toNat = last + 1 := ⟨retries.toNat - 1, by omega⟩
  obtain ⟨err, hresult⟩ := hfails last (by omega)
  rw [Nat.sub_self, hlast, lastError_of_error hresult, attemptLoop] at hloop
  rw [Nat.sub_self, attemptsMade, Nat.zero_add] at hmade
  have hbound : max 1 retries.toNat = retries.toNat := max_eq_right hretries
  rw [EndsWell, hbound]
  rw [← hlast] at hloop
  refine ⟨last, by omega, by omega, ?_,
    Or.inr ⟨err, _, hfails, hresult, congrArg Prod.fst hloop, _, _, rfl⟩⟩
  rw [forwardToBackendDirect, hloop, hlast]

end

theorem retries_of_validate {config : ReliabilityConfig} (h : config.validate = .ok ()) :
  0 ≤ config.retries
  := by
  rw [ReliabilityConfig.validate] at h
  split at h
  · cases h
  · split at h
    · cases h
    · omega

/-- With a validated configuration and a context that is not cancelled, a call of
`forwardToBackendDirect` ends as it should exactly when the configured number of retries is
not zero. -/
theorem endsWell_iff (urlParse : GoString → Except GoError URL) (req : ProxyRequest)
    (attempts : ℕ → Attempt) (t : Trace) (config : ReliabilityConfig)
    (hconfig : config.validate = .ok ()) (hactive : ∀ k, (attempts k).cancelled = false) :
  EndsWell urlParse config.retries req attempts t ↔ config.retries ≠ 0
  := by
  have hnonneg := retries_of_validate hconfig
  constructor
  · rintro ⟨last, -, hmade, -⟩ hzero
    rw [hzero, Int.toNat_zero, attemptsMade] at hmade
    omega
  · intro hretries
    by_cases hfails : ∀ k < config.retries.toNat, Fails urlParse req attempts t k
    · apply endsWell_of_fails hactive (by omega) hfails
    · -- the first attempt that does not fail has the response
      classical
      have hfirst : ∃ k, k < config.retries.toNat ∧ ¬ Fails urlParse req attempts t k := by
        simpa using hfails
      obtain ⟨hk, hresult⟩ := Nat.find_spec hfirst
      have hbefore : ∀ j < Nat.find hfirst, Fails urlParse req attempts t j := by
        intro j hj
        apply not_not.mp
        intro hj'
        apply Nat.find_min hfirst hj
        use by omega
      cases hvalue : resultOf urlParse req attempts t (Nat.find hfirst) with
      | ok response => apply endsWell_of_ok hactive hk hbefore hvalue
      | error err => exact absurd ⟨err, hvalue⟩ hresult

/-- A configuration with a number of retries. -/
def retrying (retries : ℤ) : ReliabilityConfig where
  timeout := 30 * Clock.second
  retries := retries
  backoff := 0
  queue := ⟨false, 0, 0⟩

/-- Every attempt is answered. -/
def answeredAttempts (_ : ℕ) : Attempt where
  cancelled := false
  selection := .ok (str "http://vm:8481")
  consumed := 0
  reply := .answered ⟨200, ∅, []⟩

/-- The first attempts find the backend unreachable, the others are answered. -/
def answersAfter (failures k : ℕ) : Attempt :=
  if k < failures then
    { answeredAttempts k with reply := .failed (.library "connection refused") }
  else answeredAttempts k

/-- Without retries the configuration is valid, no attempt is made and the call panics,
although the first attempt would be answered. -/
theorem panics_without_retries :
  (retrying 0).validate = .ok () ∧
    (forwardToBackendDirect oneHost (retrying 0).retries (plainRequest 0) answeredAttempts
      (.start (Body.received []))).1 = .panicked ∧
    ¬ EndsWell oneHost (retrying 0).retries (plainRequest 0) answeredAttempts
      (.start (Body.received []))
  := by
  refine ⟨rfl, rfl, ?_⟩
  rintro ⟨last, -, hmade, -⟩
  cases hmade

/-- With three retries a call survives two attempts that fail. -/
theorem endsWell_retrying :
  (retrying 3).validate = .ok () ∧
    EndsWell oneHost (retrying 3).retries (plainRequest 0) (answersAfter 2)
      (.start (Body.received []))
  := by
  have hactive : ∀ k, (answersAfter 2 k).cancelled = false := by
    intro k
    rw [answersAfter]
    split
    · rfl
    · rfl
  use rfl
  apply (endsWell_iff _ _ _ _ _ rfl hactive).mpr
  decide

end Proxy

end VmProxyAuth
