import VmProxyAuth.Proxy.Balancer

/-!
# Health checks

The checker holds a copy of the backends of its own, with the states it has found, and counts
for every URL the checks that succeeded or failed in a row.  `recordHealthCheck` changes the
state of a URL exactly when the recorded check turns it (`Checker.Turns`), and then reports
the change.

Balancer and checker both change the first backend with a given URL.  What such a change does
is said on `statesOf`, the states of the backends with one URL in order.
-/

namespace VmProxyAuth

namespace Proxy

/-! ### The states of the backends with one URL -/

/-- The states of the backends with a URL, in order. -/
def statesOf (backendURL : GoString) (backends : List Backend) : List BackendState :=
  (backends.filter (fun b => decide (b.url = backendURL))).map Backend.state

theorem mem_statesOf {backendURL : GoString} {backends : List Backend} {state : BackendState} :
  state ∈ statesOf backendURL backends ↔ ∃ b ∈ backends, b.url = backendURL ∧ b.state = state
  := by
  simp [statesOf, and_assoc]

theorem statesOf_cons (backendURL : GoString) (b : Backend) (backends : List Backend) :
  statesOf backendURL (b :: backends)
    = if b.url = backendURL then b.state :: statesOf backendURL backends
      else statesOf backendURL backends
  := by
  by_cases h : b.url = backendURL
  · simp [statesOf, h]
  · simp [statesOf, h]

/-- A change of state is made at the first backend with the URL. -/
theorem statesOf_updateState_self (backendURL : GoString) (newState : BackendState)
    (backends : List Backend) :
  statesOf backendURL (updateState backendURL newState backends)
    = (statesOf backendURL backends).modifyHead (fun _ => newState)
  := by
  induction backends with
  | nil => rfl
  | cons b backends ih =>
    rw [updateState, statesOf_cons]
    by_cases h : b.url = backendURL
    · rw [if_pos h, if_pos h, statesOf_cons, if_pos h]
      rfl
    · rw [if_neg h, if_neg h, statesOf_cons, if_neg h]
      apply ih

/-- A change of state leaves the backends with other URLs as they are. -/
theorem statesOf_updateState_of_ne {backendURL url : GoString} (hne : url ≠ backendURL)
    (newState : BackendState) (backends : List Backend) :
  statesOf url (updateState backendURL newState backends) = statesOf url backends
  := by
  induction backends with
  | nil => rfl
  | cons b backends ih =>
    rw [updateState]
    split
    · rename_i hb
      have hother := hb.trans_ne hne.symm
      rw [statesOf_cons, statesOf_cons, if_neg hother, if_neg hother]
    · rw [statesOf_cons, statesOf_cons, ih]

/-- A change of state changes no URL. -/
@[simp]
theorem map_url_updateState (backendURL : GoString) (newState : BackendState)
    (backends : List Backend) :
  (updateState backendURL newState backends).map Backend.url = backends.map Backend.url
  := by
  induction backends with
  | nil => rfl
  | cons b backends ih =>
    rw [updateState]
    split
    · rfl
    · rw [List.map_cons, ih, List.map_cons]

theorem length_updateState (backendURL : GoString) (newState : BackendState)
    (backends : List Backend) :
  (updateState backendURL newState backends).length = backends.length
  := by
  rw [← List.length_map Backend.url, map_url_updateState, List.length_map]

/-- There are as many states as occurrences of the URL. -/
theorem length_statesOf (backendURL : GoString) (backends : List Backend) :
  (statesOf backendURL backends).length = (backends.map Backend.url).count backendURL
  := by
  induction backends with
  | nil => rfl
  | cons b backends ih =>
    rw [statesOf_cons, List.map_cons, List.count_cons]
    by_cases h : b.url = backendURL
    · simp [h, ih]
    · simp [h, ih]

/-! ### The checker -/

/-- `CheckerConfig`. -/
structure CheckerConfig where
  checkInterval : ℤ
  timeout : ℤ
  healthyThreshold : ℤ
  unhealthyThreshold : ℤ
  healthEndpoint : GoString
  deriving DecidableEq, Repr

/-- The defaults `NewChecker` sets. -/
def CheckerConfig.withDefaults (config : CheckerConfig) : CheckerConfig where
  checkInterval := config.checkInterval
  timeout := if config.timeout = 0 then 10 * Clock.second else config.timeout
  healthyThreshold := if config.healthyThreshold = 0 then 2 else config.healthyThreshold
  unhealthyThreshold := if config.unhealthyThreshold = 0 then 3 else config.unhealthyThreshold
  healthEndpoint := if config.healthEndpoint = [] then str "/health" else config.healthEndpoint

/-- The checks of a URL that succeeded or failed in a row. -/
structure Counters where
  consecutiveSuccesses : ℕ
  consecutiveFailures : ℕ
  deriving DecidableEq, Repr

/-- The counters after one more check. -/
def Counters.record (c : Counters) (isHealthy : Bool) : Counters :=
  if isHealthy then ⟨c.consecutiveSuccesses + 1, 0⟩ else ⟨0, c.consecutiveFailures + 1⟩

/-- `Checker`. -/
structure Checker where
  config : CheckerConfig
  backends : List Backend
  backendStates : GoMap GoString Counters

/-- A change of the state of a backend, as it is reported. -/
structure StateChange where
  backendURL : GoString
  oldState : BackendState
  newState : BackendState
  deriving DecidableEq, Repr

namespace Checker

/-- `NewChecker`. -/
def new (config : CheckerConfig) (backends : List Backend) : Checker where
  config := config.withDefaults
  backends := backends
  backendStates := backends.foldl (fun m b => m.insert b.url ⟨0, 0⟩) ∅

/-- The state a check leads to once it has been found often enough in a row. -/
def target (isHealthy : Bool) : BackendState := if isHealthy then .healthy else .unhealthy

/-- Whether a check has been found often enough in a row. -/
def reached (config : CheckerConfig) (isHealthy : Bool) (state : Counters) : Bool :=
  if isHealthy then decide (config.healthyThreshold ≤ state.consecutiveSuccesses)
  else decide (config.unhealthyThreshold ≤ state.consecutiveFailures)

/-- `recordHealthCheck`, with the change of state it reports. -/
def recordHealthCheck (hc : Checker) (backendURL : GoString) (isHealthy : Bool) :
    Checker × Option StateChange :=
  match hc.backendStates.lookup backendURL with
  | none => (hc, none)
  | some counters =>
    let state := counters.record isHealthy
    let counted := { hc with backendStates := hc.backendStates.insert backendURL state }
    match hc.backends.find? (fun b => decide (b.url = backendURL)) with
    | none => (counted, none)
    | some currentBackend =>
      if currentBackend.state = .maintenance then (counted, none)
      else
        let currentState := currentBackend.state
        let newState := if reached hc.config isHealthy state then target isHealthy else currentState
        if newState ≠ currentState then
          ({ counted with backends := updateState backendURL newState hc.backends },
            some ⟨backendURL, currentState, newState⟩)
        else (counted, none)

/-- The checker's state for a URL. -/
def stateOf (hc : Checker) (backendURL : GoString) : Option BackendState :=
  (statesOf backendURL hc.backends).head?

/-- A check of a URL turns its state: the state is another than the one the check leads to,
and the check is found often enough in a row. -/
def Turns (hc : Checker) (backendURL : GoString) (isHealthy : Bool) : Prop :=
  (∃ state ∈ hc.stateOf backendURL, state ≠ .maintenance ∧ state ≠ target isHealthy) ∧
    ∃ counters ∈ hc.backendStates.lookup backendURL,
      reached hc.config isHealthy (counters.record isHealthy) = true

instance (hc : Checker) (backendURL : GoString) (isHealthy : Bool) :
    Decidable (hc.Turns backendURL isHealthy) :=
  inferInstanceAs (Decidable ((∃ _, _ ∧ _) ∧ ∃ _, _ ∧ _))

theorem stateOf_eq_find? (hc : Checker) (backendURL : GoString) :
  hc.stateOf backendURL
    = (hc.backends.find? (fun b => decide (b.url = backendURL))).map Backend.state
  := by
  rw [stateOf, statesOf, List.head?_map, List.head?_filter]

/-- A check that turns a state changes it and reports the change. -/
theorem recordHealthCheck_of_turns {hc : Checker} {backendURL : GoString} {isHealthy : Bool}
    (h : hc.Turns backendURL isHealthy) :
  (∃ oldState, (hc.recordHealthCheck backendURL isHealthy).2
      = some ⟨backendURL, oldState, target isHealthy⟩) ∧
    (hc.recordHealthCheck backendURL isHealthy).1.backends
      = updateState backendURL (target isHealthy) hc.backends
  := by
  obtain ⟨⟨state, hstate, hmaintenance, hne⟩, counters, hcounters, hreached⟩ := h
  rw [stateOf_eq_find?, Option.mem_def, Option.map_eq_some_iff] at hstate
  obtain ⟨b, hfind, rfl⟩ := hstate
  simp [recordHealthCheck, Option.mem_def.mp hcounters, hfind, hmaintenance, hreached, hne.symm]

/-- A check that turns no state changes none and reports nothing. -/
theorem recordHealthCheck_of_not_turns {hc : Checker} {backendURL : GoString} {isHealthy : Bool}
    (h : ¬ hc.Turns backendURL isHealthy) :
  (hc.recordHealthCheck backendURL isHealthy).2 = none ∧
    (hc.recordHealthCheck backendURL isHealthy).1.backends = hc.backends
  := by
  rw [recordHealthCheck]
  split
  · apply And.intro rfl rfl
  · rename_i counters hcounters
    dsimp only
    split
    · apply And.intro rfl rfl
    · rename_i b hfind
      split
      · apply And.intro rfl rfl
      · rename_i hmaintenance
        rw [if_neg]
        · apply And.intro rfl rfl
        · intro hne
          apply h
          split at hne
          · rename_i hreached
            have hstate : hc.stateOf backendURL = some b.state := by
              rw [stateOf_eq_find?, hfind, Option.map_some]
            apply And.intro ⟨b.state, hstate, hmaintenance, hne.symm⟩
            apply Exists.intro counters ⟨hcounters, hreached⟩
          · apply absurd rfl hne

end Checker

end Proxy

end VmProxyAuth
