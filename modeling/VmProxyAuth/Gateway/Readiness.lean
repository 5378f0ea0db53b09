import VmProxyAuth.Proxy.Maintenance

/-!
# Health and readiness

`Readiness` answers from the states of the backends, `Health` answers that the process is up.  The
server has one handler for `/health` and `/ready`, which answers with `Health`; no path is served by
`Readiness` (`answerHealth_eq_some_iff`).  In every reachable state `/ready` says that the service
is healthy; `Readiness` would refuse exactly while no backend is healthy, which is while no backend
can be handed out (`ready_in_every_state`).
-/

namespace VmProxyAuth

namespace Proxy

/-! ### The status of the backends -/

/-- `BackendStatus`. -/
structure BackendStatus where
  backend : Backend
  isHealthy : Bool
  activeConns : ℤ
  deriving DecidableEq, Repr

/-- The statuses of backends with the connections that are counted for them. -/
def statusesOf (backends : List Backend) (activeConns : ℕ → ℤ) : List BackendStatus :=
  backends.mapIdx (fun i backend => ⟨backend, backend.state.isAvailable, activeConns i⟩)

/-- `BackendsStatus`: only the least connections balancer counts connections. -/
def LoadBalancer.backendsStatus : LoadBalancer → List BackendStatus
  | roundRobin rrb => statusesOf rrb.backends (fun _ => 0)
  | weighted wrr => statusesOf wrr.backends (fun _ => 0)
  | leastConnections lcb => statusesOf lcb.backends lcb.conns

/-- `GetBackendsStatus`. -/
def Router.getBackendsStatus (r : Router) : List BackendStatus := r.loadBalancer.backendsStatus

end Proxy

namespace Gateway

open Proxy

/-! ### The health handler -/

/-- What the health handler writes: the status code, the status, the version and the text of the
check of the backends. -/
structure HealthResponse where
  statusCode : ℕ
  status : String
  version : Option String
  backends : Option (String × List FmtArg)
  deriving DecidableEq, Repr

/-- `HealthHandler`, which reads the statuses from the proxy service if there is one. -/
structure HealthHandler where
  version : String
  proxyService : Option Router

namespace HealthHandler

/-- `Health`. -/
def health (h : HealthHandler) : HealthResponse := ⟨200, "healthy", some h.version, none⟩

/-- `countHealthyBackends`. -/
def countHealthyBackends (statuses : List BackendStatus) : ℕ :=
  statuses.foldl (fun healthyCount status =>
    if status.isHealthy then healthyCount + 1 else healthyCount) 0

/-- `checkBackendHealth`: the status, its code, and the text of the check. -/
def checkBackendHealth (h : HealthHandler) : String × ℕ × String × List FmtArg :=
  match h.proxyService with
  | none => ("degraded", 503, "proxy service not configured", [])
  | some r =>
    let healthyBackends := countHealthyBackends r.getBackendsStatus
    let totalBackends := r.getBackendsStatus.length
    if totalBackends = 0 then ("degraded", 503, "no backends configured", [])
    else if healthyBackends = 0 then ("degraded", 503, "all backends unhealthy", [])
    else if healthyBackends < totalBackends then
      ("ready", 200, "%d/%d backends healthy", [.int healthyBackends, .int totalBackends])
    else ("ready", 200, "all backends healthy", [])

/-- `Readiness`. -/
def readiness (h : HealthHandler) : HealthResponse :=
  let (status, statusCode, backends) := h.checkBackendHealth
  ⟨statusCode, status, none, some backends⟩

/-- `ServeHTTP`. -/
def serveHTTP (h : HealthHandler) : HealthResponse := h.health

end HealthHandler

/-- The handlers of the server. -/
inductive Handler where
  | health
  | metrics
  | gateway
  deriving DecidableEq, Repr

/-- The handler that `main` has registered for a path. -/
def handlerFor (metricsEnabled : Bool) (path : GoString) : Handler :=
  if path = str "/health" then .health
  else if path = str "/ready" then .health
  else if metricsEnabled ∧ path = str "/metrics" then .metrics
  else .gateway

/-- What the server answers to a health request, if the health handler has it. -/
def answerHealth (metricsEnabled : Bool) (path : GoString) (h : HealthHandler) :
    Option HealthResponse :=
  match handlerFor metricsEnabled path with
  | .health => some h.serveHTTP
  | .metrics => none
  | .gateway => none

/-- No path is served by `Readiness`. -/
theorem answerHealth_eq_some_iff (metricsEnabled : Bool) (path : GoString) (h : HealthHandler)
    (response : HealthResponse) :
  answerHealth metricsEnabled path h = some response ↔
    (path = str "/health" ∨ path = str "/ready") ∧ response = h.health
  := by
  rw [answerHealth, handlerFor]
  split_ifs with hhealth hready hmetrics
  · simp [hhealth, HealthHandler.serveHTTP, eq_comm]
  · simp [hready, HealthHandler.serveHTTP, eq_comm]
  · simp [hhealth, hready]
  · simp [hhealth, hready]

/-! ### What readiness tells -/

theorem countHealthyBackends_eq_countP (statuses : List BackendStatus) :
  HealthHandler.countHealthyBackends statuses = statuses.countP BackendStatus.isHealthy
  := by
  have hfoldl : ∀ (l : List BackendStatus) (n : ℕ), l.foldl (fun healthyCount status =>
      if status.isHealthy then healthyCount + 1 else healthyCount) n
        = n + l.countP BackendStatus.isHealthy := by
    intro l
    induction l with
    | nil => exact fun n => rfl
    | cons status l ih =>
      intro n
      rw [List.foldl_cons, ih, List.countP_cons]
      cases status.isHealthy with
      | true => apply Nat.add_right_comm n 1 _
      | false => rfl
  rw [HealthHandler.countHealthyBackends, hfoldl, Nat.zero_add]

theorem countHealthyBackends_eq_zero_iff (backends : List Backend) (activeConns : ℕ → ℤ) :
  HealthHandler.countHealthyBackends (statusesOf backends activeConns) = 0 ↔
    ∀ b ∈ backends, b.state ≠ .healthy
  := by
  rw [countHealthyBackends_eq_countP, List.countP_eq_zero]
  constructor
  · intro h b hb hstate
    obtain ⟨i, hi, rfl⟩ := List.getElem_of_mem hb
    apply h ⟨backends[i], backends[i].state.isAvailable, activeConns i⟩
    · apply List.mem_mapIdx.mpr ⟨i, hi, rfl⟩
    · simp [BackendState.isAvailable, hstate]
  · intro h status hstatus
    obtain ⟨i, hi, rfl⟩ := List.mem_mapIdx.mp hstatus
    simpa [BackendState.isAvailable] using h _ (List.getElem_mem hi)

/-- `Readiness` refuses exactly if no backend is healthy. -/
theorem readiness_statusCode (version : String) (r : Router) :
  (HealthHandler.mk version (some r)).readiness.statusCode
    = if ∀ b ∈ r.loadBalancer.backends, b.state ≠ .healthy then 503 else 200
  := by
  have hstatuses : ∃ activeConns,
      r.getBackendsStatus = statusesOf r.loadBalancer.backends activeConns := by
    rw [Router.getBackendsStatus]
    cases r.loadBalancer with
    | roundRobin rrb => exact ⟨_, rfl⟩
    | weighted wrr => exact ⟨_, rfl⟩
    | leastConnections lcb => exact ⟨_, rfl⟩
  obtain ⟨activeConns, hstatuses⟩ := hstatuses
  have hcount := countHealthyBackends_eq_zero_iff r.loadBalancer.backends activeConns
  have hlength : (statusesOf r.loadBalancer.backends activeConns).length = 0 →
      ∀ b ∈ r.loadBalancer.backends, b.state ≠ .healthy := by
    intro hnil
    rw [statusesOf, List.length_mapIdx, List.length_eq_zero_iff] at hnil
    rw [hnil]
    exact List.forall_mem_nil _
  simp only [HealthHandler.readiness, HealthHandler.checkBackendHealth, hstatuses, hcount]
  split_ifs with htotal hhealthy hless hnone
  · rfl
  · exact absurd (hlength htotal) hhealthy
  · rfl
  · rfl
  · rfl

/-! ### Reachable states -/

namespace Readiness

open Routing

/-- No backend of the balancer is rate limited. -/
def Unlimited (s : Routing.State) : Prop :=
  ∀ b ∈ s.router.loadBalancer.backends, b.state ≠ .rateLimited

theorem unlimited_next {s t : Routing.State} {a : Routing.Action} (h : Unlimited s)
    (hstep : Routing.machine.step s a = some t) :
  Unlimited t
  := by
  obtain rfl := Option.some.inj hstep
  intro b hb hstate
  rw [balancer_next] at hb
  have hmem : BackendState.rateLimited ∈ statesOf b.url
      (write (written s a) s.router.loadBalancer.backends) := by
    rw [mem_statesOf]
    exact ⟨b, hb, rfl, hstate⟩
  obtain hold | hwritten := mem_statesOf_write hmem
  · obtain ⟨b', hb', -, hstate'⟩ := mem_statesOf.mp hold
    apply h b' hb' hstate'
  · cases a with
    | setMaintenanceMode backend enabled =>
      cases enabled with
      | true => simp [written] at hwritten
      | false => simp [written] at hwritten
    | recordHealthCheck backendURL isHealthy =>
      rw [written, turned] at hwritten
      · split_ifs at hwritten
        cases isHealthy with
        | true => simp [Checker.target] at hwritten
        | false => simp [Checker.target] at hwritten
      · rintro backend enabled ⟨⟩
    | nextBackend => cases hwritten
    | reportResult backendURL => cases hwritten
    | close => cases hwritten

end Readiness

/-- In every reachable state `/ready` and `/health` answer that the service is healthy, and no other
path is served by the health handler.  `Readiness` would answer 503 exactly if no backend is
healthy, and a backend is handed out only while it would answer 200. -/
theorem ready_in_every_state {config : Proxy.Config} {r : Router}
    (hnew : Router.new config = .ok r) {actions : List Routing.Action} {t : Routing.State}
    (hrun : Routing.machine.run (.start r) actions = some t) (metricsEnabled : Bool)
    (version : String) :
  (∀ path response, answerHealth metricsEnabled path ⟨version, some t.router⟩ = some response ↔
      (path = str "/health" ∨ path = str "/ready") ∧
        response = ⟨200, "healthy", some version, none⟩) ∧
    ((HealthHandler.mk version (some t.router)).readiness.statusCode = 503 ↔
      ∀ b ∈ t.router.loadBalancer.backends, b.state ≠ .healthy) ∧
    ∀ b, t.router.loadBalancer.nextBackend.1 = .selected b →
      (HealthHandler.mk version (some t.router)).readiness.statusCode = 200
  := by
  have hstart : Readiness.Unlimited (.start r) := by
    intro b hb
    have hheld := congrArg Prod.fst (Router.held_new hnew)
    rw [Routing.State.start] at hb
    rw [show r.loadBalancer.backends = config.upstreams.map UpstreamConfig.backend from hheld] at hb
    obtain ⟨u, -, rfl⟩ := List.mem_map.mp hb
    rintro ⟨⟩
  have hunlimited : Readiness.Unlimited t :=
    Machine.invariant_of_run (fun s a t => Readiness.unlimited_next) hstart hrun
  rw [readiness_statusCode]
  refine ⟨fun path response => answerHealth_eq_some_iff metricsEnabled path _ response, ?_, ?_⟩
  · split_ifs with h
    · apply iff_of_true rfl h
    · apply iff_of_false (by decide) h
  · intro b hb
    obtain ⟨hmem, husable⟩ := LoadBalancer.selected_nextBackend hb
    have hhealthy : b.state = .healthy := by
      have hlimited := hunlimited b hmem
      simp only [isUsable, BackendState.isAvailableWithFallback, Bool.or_eq_true,
        decide_eq_true_eq] at husable
      apply husable.resolve_right hlimited
    rw [if_neg]
    intro hnone
    apply hnone b hmem hhealthy

/-- The only backend fails three checks. -/
theorem ready_without_backends :
  ∃ r t, Router.new (Routing.exampleConfig (str "round-robin") [str "http://vm-1:8428"]) = .ok r ∧
    Routing.machine.run (.start r)
      [.recordHealthCheck (str "http://vm-1:8428") false,
        .recordHealthCheck (str "http://vm-1:8428") false,
        .recordHealthCheck (str "http://vm-1:8428") false] = some t ∧
    answerHealth true (str "/ready") ⟨"dev", some t.router⟩
      = some ⟨200, "healthy", some "dev", none⟩ ∧
    (HealthHandler.mk "dev" (some t.router)).readiness.statusCode = 503
  := by
  refine ⟨_, _, rfl, rfl, ?_, ?_⟩
  · apply ((@ready_in_every_state (Routing.exampleConfig (str "round-robin")
      [str "http://vm-1:8428"]) _ rfl [.recordHealthCheck (str "http://vm-1:8428") false,
        .recordHealthCheck (str "http://vm-1:8428") false,
        .recordHealthCheck (str "http://vm-1:8428") false] _ rfl true "dev").1 _ _).mpr
    use .inr rfl
  · decide +kernel

end Gateway

end VmProxyAuth
