import VmProxyAuth.Lib.Machine
import VmProxyAuth.Proxy.Attempts
import VmProxyAuth.Proxy.Health

/-!
# Routing

The part of the service that decides which backend a request goes to: a balancer, a health
checker that reports its changes of state to the balancer, and the maintenance mode, which is
written to the balancer alone.  `Routing.machine` takes the calls of the service in any order;
its states also keep which backends are in maintenance, and for every backend handed out what
was known of it then.
-/

namespace VmProxyAuth

namespace Proxy

/-! ### Configuration -/

/-- `UpstreamConfig`. -/
structure UpstreamConfig where
  url : GoString
  weight : ℤ
  deriving DecidableEq, Repr

/-- `HealthCheckConfig`. -/
structure HealthCheckConfig where
  interval : ℤ
  timeout : ℤ
  endpoint : GoString
  healthyThreshold : ℤ
  unhealthyThreshold : ℤ
  deriving DecidableEq, Repr

/-- `RoutingConfig`. -/
structure RoutingConfig where
  strategy : GoString
  healthCheck : HealthCheckConfig
  deriving DecidableEq, Repr

/-- `Config`. -/
structure Config where
  upstreams : List UpstreamConfig
  routing : RoutingConfig
  reliability : ReliabilityConfig
  deriving DecidableEq, Repr

/-- `UpstreamConfig.Validate`, where `urlParse` is `url.Parse`. -/
def UpstreamConfig.validate (urlParse : GoString → Except GoError Http.URL) (u : UpstreamConfig) :
    Except GoError Unit :=
  if u.url = [] then .error (.errorf "upstream URL is required" [])
  else
    match urlParse u.url with
    | .error err => .error (.wrapf "invalid upstream URL: %w" [] err)
    | .ok _ =>
      if u.weight < 0 then
        .error (.errorf "upstream weight must be non-negative, got %d" [.int u.weight])
      else .ok ()

/-- The loop of `Config.Validate` over the upstreams, from the one with index `i` on. -/
def validateUpstreams (urlParse : GoString → Except GoError Http.URL) :
    ℕ → List UpstreamConfig → Except GoError Unit
  | _, [] => .ok ()
  | i, u :: upstreams =>
    match u.validate urlParse with
    | .error err => .error (.wrapf "upstream %d validation failed: %w" [.int i] err)
    | .ok () => validateUpstreams urlParse (i + 1) upstreams

/-- `HealthCheckConfig.Validate`. -/
def HealthCheckConfig.validate (h : HealthCheckConfig) : Except GoError Unit :=
  if h.interval ≤ 0 then
    .error (.errorf "health check interval must be positive, got %v" [.duration h.interval])
  else if h.timeout ≤ 0 then
    .error (.errorf "health check timeout must be positive, got %v" [.duration h.timeout])
  else if h.interval ≤ h.timeout then
    .error (.errorf "health check timeout (%v) must be less than interval (%v)"
      [.duration h.timeout, .duration h.interval])
  else if h.healthyThreshold ≤ 0 then
    .error (.errorf "healthy threshold must be positive, got %d" [.int h.healthyThreshold])
  else if h.unhealthyThreshold ≤ 0 then
    .error (.errorf "unhealthy threshold must be positive, got %d" [.int h.unhealthyThreshold])
  else if h.endpoint = [] then .error (.errorf "health check endpoint is required" [])
  else .ok ()

/-- The strategies a configuration may name. -/
def validStrategies : List GoString :=
  [str "round-robin", str "weighted-round-robin", str "least-connections"]

/-- `RoutingConfig.Validate`. -/
def RoutingConfig.validate (r : RoutingConfig) : Except GoError Unit :=
  if r.strategy ∈ validStrategies then r.healthCheck.validate
  else
    .error (.errorf "invalid routing strategy: %s (valid: %v)"
      (.string r.strategy :: validStrategies.map .string))

/-- `Config.Validate`. -/
def Config.validate (urlParse : GoString → Except GoError Http.URL) (c : Config) :
    Except GoError Unit :=
  if c.upstreams = [] then .error (.errorf "at least one upstream is required" [])
  else
    match validateUpstreams urlParse 0 c.upstreams with
    | .error err => .error err
    | .ok () =>
      match c.routing.validate with
      | .error err => .error (.wrapf "routing validation failed: %w" [] err)
      | .ok () =>
        match c.reliability.validate with
        | .error err => .error (.wrapf "reliability validation failed: %w" [] err)
        | .ok () => .ok ()

/-! ### The service -/

/-- The balancer and the checker of a service. -/
structure Router where
  loadBalancer : LoadBalancer
  healthChecker : Checker

/-- The backend an upstream is made, healthy to begin with. -/
def UpstreamConfig.backend (u : UpstreamConfig) : Backend :=
  ⟨u.url, if u.weight ≤ 0 then defaultBackendWeight else u.weight, .healthy⟩

/-- The configuration of the checker. -/
def Config.checkerConfig (config : Config) : CheckerConfig where
  checkInterval := config.routing.healthCheck.interval
  timeout := config.routing.healthCheck.timeout
  healthyThreshold := config.routing.healthCheck.healthyThreshold
  unhealthyThreshold := config.routing.healthCheck.unhealthyThreshold
  healthEndpoint := config.routing.healthCheck.endpoint

namespace Router

/-- `NewEnhancedService`, as far as routing goes. -/
def new (config : Config) : Except GoError Router :=
  if config.upstreams = [] then
    .error (.errorf "at least one upstream must be configured" [])
  else
    let backends := config.upstreams.map UpstreamConfig.backend
    match LoadBalancer.create config.routing.strategy backends with
    | .error err => .error (.wrapf "failed to create load balancer: %w" [] err)
    | .ok loadBalancer => .ok ⟨loadBalancer, Checker.new config.checkerConfig backends⟩

/-- `onBackendStateChange`. -/
def onBackendStateChange (r : Router) (change : StateChange) : Router :=
  { r with loadBalancer :=
      r.loadBalancer.updateBackendState change.backendURL change.newState }

/-- `SetMaintenanceMode`. -/
def setMaintenanceMode (r : Router) (backend : GoString) (enabled : Bool) : Router :=
  { r with loadBalancer :=
      r.loadBalancer.updateBackendState backend (if enabled then .maintenance else .healthy) }

/-- `recordHealthCheck` of the checker, which calls `onBackendStateChange` if a state has
changed. -/
def recordHealthCheck (r : Router) (backendURL : GoString) (isHealthy : Bool) : Router :=
  let recorded := r.healthChecker.recordHealthCheck backendURL isHealthy
  match recorded.2 with
  | none => { r with healthChecker := recorded.1 }
  | some change => onBackendStateChange { r with healthChecker := recorded.1 } change

/-- The backends of balancer and checker. -/
def held (r : Router) : List Backend × List Backend :=
  (r.loadBalancer.backends, r.healthChecker.backends)

/-- A new service has the same backends, all healthy, on both sides. -/
theorem held_new {config : Config} {r : Router} (h : new config = .ok r) :
  r.held
    = (config.upstreams.map UpstreamConfig.backend, config.upstreams.map UpstreamConfig.backend)
  := by
  rw [new] at h
  split at h
  · cases h
  · dsimp only at h
    split at h
    · cases h
    · rename_i loadBalancer hcreate
      cases h
      rw [held, LoadBalancer.backends_create hcreate]
      rfl

@[simp]
theorem held_setMaintenanceMode (r : Router) (backend : GoString) (enabled : Bool) :
  (r.setMaintenanceMode backend enabled).held
    = (updateState backend (if enabled then .maintenance else .healthy) r.loadBalancer.backends,
        r.healthChecker.backends)
  := by
  rw [setMaintenanceMode, held, LoadBalancer.backends_updateBackendState]

/-- A check that turns a state changes it on both sides. -/
theorem held_recordHealthCheck_of_turns {r : Router} {backendURL : GoString} {isHealthy : Bool}
    (h : r.healthChecker.Turns backendURL isHealthy) :
  (r.recordHealthCheck backendURL isHealthy).held
    = (updateState backendURL (Checker.target isHealthy) r.loadBalancer.backends,
        updateState backendURL (Checker.target isHealthy) r.healthChecker.backends)
  := by
  obtain ⟨⟨oldState, hchange⟩, hbackends⟩ := Checker.recordHealthCheck_of_turns h
  rw [recordHealthCheck, hchange]
  dsimp only
  rw [onBackendStateChange, held, LoadBalancer.backends_updateBackendState, hbackends]

/-- A check that turns no state changes none on either side. -/
theorem held_recordHealthCheck_of_not_turns {r : Router} {backendURL : GoString}
    {isHealthy : Bool} (h : ¬ r.healthChecker.Turns backendURL isHealthy) :
  (r.recordHealthCheck backendURL isHealthy).held = r.held
  := by
  obtain ⟨hchange, hbackends⟩ := Checker.recordHealthCheck_of_not_turns h
  rw [recordHealthCheck, hchange]
  dsimp only
  rw [held, hbackends, held]

end Router

/-- A configuration that passes its own check is one a service is made of. -/
theorem Config.exists_router_of_validate {urlParse : GoString → Except GoError Http.URL}
    {config : Config} (h : config.validate urlParse = .ok ()) :
  ∃ r, Router.new config = .ok r
  := by
  rw [Config.validate] at h
  split at h
  · cases h
  · rename_i hupstreams
    split at h
    · cases h
    · split at h
      · cases h
      · rename_i hrouting
        have hstrategy : config.routing.strategy ∈ validStrategies := by
          by_contra hnot
          rw [RoutingConfig.validate, if_neg hnot] at hrouting
          cases hrouting
        have hbackends : config.upstreams.map UpstreamConfig.backend ≠ [] := by
          rw [Ne, List.map_eq_nil_iff]
          apply hupstreams
        obtain ⟨loadBalancer, hcreate⟩ := LoadBalancer.exists_create hstrategy hbackends
        rw [Router.new, if_neg hupstreams]
        dsimp only
        rw [hcreate]
        exact ⟨_, rfl⟩

/-! ### Runs -/

namespace Routing

/-- A backend handed out: whether it was in maintenance then, and the checker's state for it. -/
structure HandedOut where
  url : GoString
  inMaintenance : Bool
  considered : Option BackendState
  deriving DecidableEq, Repr

/-- The service, the URLs whose maintenance mode was last enabled, and the backends handed
out so far. -/
structure State where
  router : Router
  maintained : List GoString
  handedOut : List HandedOut

/-- A call of the service, or a health check that is recorded. -/
inductive Action where
  | setMaintenanceMode (backend : GoString) (enabled : Bool)
  | recordHealthCheck (backendURL : GoString) (isHealthy : Bool)
  | nextBackend
  | reportResult (backendURL : GoString)
  | close
  deriving DecidableEq, Repr

/-- A service that has not been called yet. -/
def State.start (r : Router) : State := ⟨r, [], []⟩

/-- What is known of a backend when it is handed out. -/
def State.handOut (s : State) (b : Backend) : HandedOut :=
  ⟨b.url, decide (b.url ∈ s.maintained), s.router.healthChecker.stateOf b.url⟩

/-- The backends handed out after a call of `NextBackend`. -/
def State.recorded (s : State) : Selection → List HandedOut
  | .selected b => s.handedOut ++ [s.handOut b]
  | .failed _ => s.handedOut
  | .panicked => s.handedOut

/-- One call. -/
def next (s : State) : Action → State
  | .setMaintenanceMode backend enabled =>
    { s with
      router := s.router.setMaintenanceMode backend enabled
      maintained :=
        if enabled then backend :: s.maintained else s.maintained.filter (· ≠ backend) }
  | .recordHealthCheck backendURL isHealthy =>
    { s with router := s.router.recordHealthCheck backendURL isHealthy }
  | .nextBackend =>
    { s with
      router := { s.router with loadBalancer := s.router.loadBalancer.nextBackend.2 }
      handedOut := s.recorded s.router.loadBalancer.nextBackend.1 }
  | .reportResult backendURL =>
    { s with
      router := { s.router with loadBalancer := s.router.loadBalancer.reportResult backendURL } }
  | .close =>
    { s with router := { s.router with loadBalancer := s.router.loadBalancer.close } }

/-- The calls in any order. -/
def machine : Machine State Action where
  step s a := some (next s a)

/-- What holds of everything handed out after a call held of what was handed out before, and
holds of a usable backend the balancer held. -/
theorem mem_recorded {s : State} {h : HandedOut}
    (hmem : h ∈ s.recorded s.router.loadBalancer.nextBackend.1) :
  h ∈ s.handedOut ∨ ∃ b ∈ s.router.loadBalancer.backends, isUsable b ∧ h = s.handOut b
  := by
  rcases hselected : s.router.loadBalancer.nextBackend.1 with b | err | _
  · rw [hselected] at hmem
    obtain hold | hnew := List.mem_append.mp hmem
    · apply Or.inl hold
    · obtain ⟨hb, husable⟩ := LoadBalancer.selected_nextBackend hselected
      apply Or.inr ⟨b, hb, husable, List.mem_singleton.mp hnew⟩
  · rw [hselected] at hmem
    apply Or.inl hmem
  · rw [hselected] at hmem
    apply Or.inl hmem

end Routing

end Proxy

end VmProxyAuth
