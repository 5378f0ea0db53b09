import VmProxyAuth.Proxy.Routing

/-!
# Maintenance and health

Two questions about the two copies of the backends' states.

Is maintenance sticky?  A backend in maintenance is not usable until the checker reports its
change to healthy, which it does whatever the balancer says (`maintained_withheld_iff`).

Do balancer and checker agree on which backends are unhealthy?  They part in two ways only:
leaving maintenance makes a backend healthy that the checker considers unhealthy, and of
several backends with one URL only the first becomes unhealthy.
-/

namespace VmProxyAuth

namespace Proxy

namespace Routing

open Checker

/-- The states of the balancer's backends with a URL. -/
def State.balancerStates (s : State) (url : GoString) : List BackendState :=
  statesOf url s.router.loadBalancer.backends

/-- The checker's state for a URL. -/
def State.checkerState (s : State) (url : GoString) : Option BackendState :=
  s.router.healthChecker.stateOf url

/-! ### What a step does to the states

A step writes at most one state, to the first backend with a URL.  Only what the checker has
found is written on both sides. -/

/-- The backends after a state is written, if one is. -/
def write (change : Option (GoString × BackendState)) (backends : List Backend) : List Backend :=
  match change with
  | none => backends
  | some (url, newState) => updateState url newState backends

/-- The state the checker changes in a step. -/
def turned (s : State) : Action → Option (GoString × BackendState)
  | .recordHealthCheck backendURL isHealthy =>
    if s.router.healthChecker.Turns backendURL isHealthy then
      some (backendURL, target isHealthy)
    else none
  | _ => none

/-- The state the balancer is given in a step. -/
def written (s : State) : Action → Option (GoString × BackendState)
  | .setMaintenanceMode backend enabled =>
    some (backend, if enabled then .maintenance else .healthy)
  | a => turned s a

theorem held_next (s : State) (a : Action) :
  (next s a).router.held
    = (write (written s a) s.router.loadBalancer.backends,
        write (turned s a) s.router.healthChecker.backends)
  := by
  cases a with
  | setMaintenanceMode backend enabled => apply Router.held_setMaintenanceMode
  | recordHealthCheck backendURL isHealthy =>
    rw [written, turned]
    · by_cases hturns : s.router.healthChecker.Turns backendURL isHealthy
      · rw [if_pos hturns]
        apply Router.held_recordHealthCheck_of_turns hturns
      · rw [if_neg hturns]
        apply Router.held_recordHealthCheck_of_not_turns hturns
    · rintro backend enabled ⟨⟩
  | nextBackend => exact Prod.ext (LoadBalancer.backends_nextBackend _) rfl
  | reportResult backendURL => exact Prod.ext (LoadBalancer.backends_reportResult _ _) rfl
  | close => exact Prod.ext (LoadBalancer.backends_close _) rfl

theorem balancer_next (s : State) (a : Action) :
  (next s a).router.loadBalancer.backends = write (written s a) s.router.loadBalancer.backends
  := congrArg Prod.fst (held_next s a)

theorem checker_next (s : State) (a : Action) :
  (next s a).router.healthChecker.backends = write (turned s a) s.router.healthChecker.backends
  := congrArg Prod.snd (held_next s a)

theorem statesOf_write_self (url : GoString) (newState : BackendState) (backends : List Backend) :
  statesOf url (write (some (url, newState)) backends)
    = (statesOf url backends).modifyHead (fun _ => newState)
  := statesOf_updateState_self url newState backends

theorem map_url_write (change : Option (GoString × BackendState)) (backends : List Backend) :
  (write change backends).map Backend.url = backends.map Backend.url
  := by
  obtain _ | ⟨url, newState⟩ := change
  · rfl
  · apply map_url_updateState

/-- A write reaches none but the first backend with a URL. -/
theorem tail_statesOf_write (change : Option (GoString × BackendState)) (backends : List Backend)
    (url : GoString) :
  (statesOf url (write change backends)).tail = (statesOf url backends).tail
  := by
  obtain _ | ⟨changed, newState⟩ := change
  · rfl
  · by_cases h : url = changed
    · rw [h, statesOf_write_self]
      cases statesOf changed backends with
      | nil => rfl
      | cons state states => rfl
    · rw [write, statesOf_updateState_of_ne h]

/-- A state after a write was there before, or is the one written. -/
theorem mem_statesOf_write {change : Option (GoString × BackendState)} {backends : List Backend}
    {url : GoString} {state : BackendState} (h : state ∈ statesOf url (write change backends)) :
  state ∈ statesOf url backends ∨ change = some (url, state)
  := by
  obtain _ | ⟨changed, newState⟩ := change
  · apply Or.inl h
  · by_cases heq : url = changed
    · subst heq
      rw [statesOf_write_self] at h
      rcases hstates : statesOf url backends with _ | ⟨first, states⟩
      · rw [hstates] at h
        cases h
      · rw [hstates, List.modifyHead_cons] at h
        obtain rfl | hrest := List.mem_cons.mp h
        · apply Or.inr rfl
        · apply Or.inl (List.mem_cons_of_mem first hrest)
    · rw [write, statesOf_updateState_of_ne heq] at h
      apply Or.inl h

theorem statesOf_write_of_ne {change : Option (GoString × BackendState)} {url : GoString}
    (h : ∀ newState, change ≠ some (url, newState)) (backends : List Backend) :
  statesOf url (write change backends) = statesOf url backends
  := by
  obtain _ | ⟨changed, newState⟩ := change
  · rfl
  · apply statesOf_updateState_of_ne
    rintro rfl
    apply h newState rfl

/-- What is written is there, if there is a backend to write it to. -/
theorem mem_statesOf_write_self {url : GoString} {backends : List Backend}
    (h : statesOf url backends ≠ []) (newState : BackendState) :
  newState ∈ statesOf url (write (some (url, newState)) backends)
  := by
  rw [statesOf_write_self]
  obtain ⟨first, states, hstates⟩ := List.exists_cons_of_ne_nil h
  rw [hstates]
  apply List.mem_cons_self

/-- What a check of a URL turns is the state of a backend with that URL. -/
theorem turned_eq_some {s : State} {a : Action} {url : GoString} {newState : BackendState}
    (h : turned s a = some (url, newState)) :
  ∃ isHealthy, a = .recordHealthCheck url isHealthy ∧ newState = target isHealthy ∧
    s.router.healthChecker.Turns url isHealthy
  := by
  obtain _ | ⟨backendURL, isHealthy⟩ := a
  · cases h
  · obtain ⟨hturns, heq⟩ := Option.ite_none_right_eq_some.mp h
    cases heq
    exact ⟨isHealthy, rfl, rfl, hturns⟩
  · cases h
  · cases h
  · cases h

/-! ### The invariant of the two copies -/

/-- The URLs are the same on both sides. -/
def SameURLs (s : State) : Prop :=
  s.router.loadBalancer.backends.map Backend.url = s.router.healthChecker.backends.map Backend.url

theorem sameURLs_next {s : State} (h : SameURLs s) (a : Action) :
  SameURLs (next s a)
  := by
  rw [SameURLs, balancer_next, checker_next, map_url_write, map_url_write]
  apply h

/-- If the checker has a state for a URL, the balancer has one. -/
theorem SameURLs.balancerStates_ne_nil {s : State} (h : SameURLs s) {url : GoString}
    {state : BackendState} (hstate : s.checkerState url = some state) :
  s.balancerStates url ≠ []
  := by
  rw [← List.length_pos_iff, State.balancerStates, length_statesOf, h, ← length_statesOf,
    List.length_pos_iff]
  intro hnil
  rw [State.checkerState, stateOf, hnil] at hstate
  cases hstate

/-! ### Maintenance -/

/-- No backend in maintenance may be used. -/
def Withheld (s : State) : Prop :=
  ∀ url ∈ s.maintained, ∀ state ∈ s.balancerStates url, state.isAvailableWithFallback = false

/-- No backend was handed out while in maintenance. -/
def Sticky (s : State) : Prop := ∀ h ∈ s.handedOut, h.inMaintenance = false

/-- No check that succeeds turns the state of a backend in maintenance. -/
def RespectsMaintenance (s : State) : Action → Prop
  | .recordHealthCheck backendURL isHealthy =>
    isHealthy = true → backendURL ∈ s.maintained →
      ¬ s.router.healthChecker.Turns backendURL isHealthy
  | _ => True

instance (s : State) : ∀ a, Decidable (RespectsMaintenance s a)
  | .recordHealthCheck _ _ => inferInstanceAs (Decidable (_ → _ → ¬ _))
  | .setMaintenanceMode _ _ => isTrue trivial
  | .nextBackend => isTrue trivial
  | .reportResult _ => isTrue trivial
  | .close => isTrue trivial

/-- The URLs of the balancer are distinct and those of the checker. -/
structure Distinct (s : State) : Prop where
  nodup : (s.router.loadBalancer.backends.map Backend.url).Nodup
  sameURLs : SameURLs s

theorem Distinct.next {s : State} (h : Distinct s) (a : Action) :
  Distinct (next s a)
  := by
  constructor
  · rw [balancer_next, map_url_write]
    apply h.nodup
  · apply sameURLs_next h.sameURLs

/-- Of distinct URLs each has at most one state. -/
theorem Distinct.tail_eq_nil {s : State} (h : Distinct s) (url : GoString) :
  (s.balancerStates url).tail = []
  := by
  rw [← List.length_eq_zero_iff, List.length_tail, State.balancerStates, length_statesOf]
  have hcount := List.nodup_iff_count_le_one.mp h.nodup url
  omega

/-- With distinct URLs, writing a state leaves it as the only one. -/
theorem Distinct.eq_of_mem_write {s : State} (h : Distinct s) {url : GoString}
    {newState state : BackendState}
    (hmem : state ∈ statesOf url (write (some (url, newState)) s.router.loadBalancer.backends)) :
  state = newState
  := by
  have htail := h.tail_eq_nil url
  rw [statesOf_write_self] at hmem
  rw [State.balancerStates] at htail
  rcases hstates : statesOf url s.router.loadBalancer.backends with _ | ⟨first, states⟩
  · rw [hstates] at hmem
    cases hmem
  · rw [hstates] at hmem htail
    obtain rfl : states = [] := htail
    apply List.mem_singleton.mp hmem

/-- A state of a backend in maintenance is as unusable after a step as before, or written by
it. -/
theorem Withheld.next_or_written {s : State} (h : Withheld s) {a : Action} {url : GoString}
    (hurl : url ∈ s.maintained) {state : BackendState}
    (hstate : state ∈ (next s a).balancerStates url) :
  state.isAvailableWithFallback = false ∨ written s a = some (url, state)
  := by
  rw [State.balancerStates, balancer_next] at hstate
  obtain hold | hnew := mem_statesOf_write hstate
  · apply Or.inl (h url hurl state hold)
  · apply Or.inr hnew

theorem Withheld.next_of_not_written {s : State} (h : Withheld s) {a : Action}
    (hmaintained : (next s a).maintained = s.maintained) (hwritten : written s a = none) :
  Withheld (next s a)
  := by
  intro url hurl state hstate
  rw [hmaintained] at hurl
  obtain hwithheld | hsome := h.next_or_written hurl hstate
  · apply hwithheld
  · rw [hwritten] at hsome
    cases hsome

/-- A step withholds the backends in maintenance exactly if no check that succeeds turns one of
them. -/
theorem withheld_next_iff {s : State} (hdistinct : Distinct s) (h : Withheld s) (a : Action) :
  Withheld (next s a) ↔ RespectsMaintenance s a
  := by
  cases a with
  | setMaintenanceMode backend enabled =>
    apply iff_of_true _ trivial
    intro url hurl state hstate
    by_cases hbackend : url = backend
    · subst hbackend
      cases enabled with
      | true =>
        rw [State.balancerStates, balancer_next] at hstate
        rw [hdistinct.eq_of_mem_write hstate]
        rfl
      | false => simp [next] at hurl
    · have hmaintained : url ∈ s.maintained := by
        cases enabled with
        | true => simpa [next, hbackend] using hurl
        | false => simpa [next, hbackend] using hurl
      obtain hwithheld | hwritten := h.next_or_written hmaintained hstate
      · apply hwithheld
      · cases hwritten
        contradiction
  | recordHealthCheck backendURL isHealthy =>
    constructor
    · rintro hnext rfl hmaintained hturns
      have hstates : statesOf backendURL s.router.loadBalancer.backends ≠ [] := by
        obtain ⟨⟨state, hstate, -⟩, -⟩ := hturns
        apply hdistinct.sameURLs.balancerStates_ne_nil hstate
      have hmem := mem_statesOf_write_self hstates .healthy
      have hwritten : written s (.recordHealthCheck backendURL true)
          = some (backendURL, .healthy) := if_pos hturns
      rw [← hwritten, ← balancer_next] at hmem
      cases hnext backendURL hmaintained .healthy hmem
    · intro hguard url hurl state hstate
      obtain hwithheld | hwritten := h.next_or_written hurl hstate
      · apply hwithheld
      · have hturned : turned s (.recordHealthCheck backendURL isHealthy) = some (url, state) :=
          hwritten
        obtain ⟨_, ⟨⟩, rfl, hturns⟩ := turned_eq_some hturned
        cases isHealthy with
        | true => apply absurd hturns (hguard rfl hurl)
        | false => rfl
  | nextBackend => apply iff_of_true (h.next_of_not_written rfl rfl) trivial
  | reportResult backendURL => apply iff_of_true (h.next_of_not_written rfl rfl) trivial
  | close => apply iff_of_true (h.next_of_not_written rfl rfl) trivial

theorem distinct_start {config : Config} {r : Router} (hnew : Router.new config = .ok r)
    (hdistinct : (config.upstreams.map UpstreamConfig.url).Nodup) :
  Distinct (.start r)
  := by
  obtain ⟨hbalancer, hchecker⟩ := Prod.mk.inj (Router.held_new hnew)
  constructor
  · rw [State.start, hbalancer, List.map_map]
    apply hdistinct
  · rw [SameURLs, State.start, hbalancer, hchecker]

/-- With distinct URLs, the backends in maintenance are withheld along a run exactly if no
check that succeeds turns the state of one of them. -/
theorem maintained_withheld_iff {config : Config} {r : Router} (hnew : Router.new config = .ok r)
    (hdistinct : (config.upstreams.map UpstreamConfig.url).Nodup) (actions : List Action) :
  machine.Always Withheld (.start r) actions
    ↔ machine.Meets RespectsMaintenance (.start r) actions
  := by
  apply Machine.always_iff_meets (J := Distinct)
  · rintro s a t hs ⟨⟩
    apply hs.next
  · rintro s a t hs hP ⟨⟩
    apply withheld_next_iff hs hP
  · apply distinct_start hnew hdistinct
  · intro url hurl
    cases hurl

/-- From a state that withholds the backends in maintenance, none of them is handed out. -/
theorem sticky_next {s : State} (hwithheld : Withheld s) (h : Sticky s) (a : Action) :
  Sticky (next s a)
  := by
  cases a with
  | setMaintenanceMode backend enabled => apply h
  | recordHealthCheck backendURL isHealthy => apply h
  | nextBackend =>
    intro handed hmem
    obtain hold | ⟨b, hb, husable, rfl⟩ := mem_recorded hmem
    · apply h handed hold
    · apply decide_eq_false
      intro hmaintained
      have hunusable := hwithheld b.url hmaintained b.state (mem_statesOf.mpr ⟨b, hb, rfl, rfl⟩)
      rw [isUsable, hunusable] at husable
      cases husable
  | reportResult backendURL => apply h
  | close => apply h

/-- With distinct URLs, along every run in which no check that succeeds turns the state of a
backend in maintenance, no backend is handed out while in maintenance. -/
theorem maintenance_sticky {config : Config} {r : Router} (hnew : Router.new config = .ok r)
    (hdistinct : (config.upstreams.map UpstreamConfig.url).Nodup) {actions : List Action}
    (hmeets : machine.Meets RespectsMaintenance (.start r) actions) :
  machine.Always Sticky (.start r) actions
  := by
  have hinvariant : machine.Always (fun s => Distinct s ∧ Withheld s ∧ Sticky s)
      (.start r) actions := by
    apply hmeets.always
    · rintro s a t ⟨hs, hwithheld, hsticky⟩ hguard ⟨⟩
      use hs.next a, (withheld_next_iff hs hwithheld a).mpr hguard
      apply sticky_next hwithheld hsticky
    · use distinct_start hnew hdistinct
      constructor
      · rintro url ⟨⟩
      · rintro handed ⟨⟩
  apply hinvariant.imp
  rintro s ⟨-, -, hsticky⟩
  apply hsticky

/-- Upstreams with given URLs, and the thresholds of the documentation. -/
def exampleConfig (strategy : GoString) (urls : List GoString) : Config where
  upstreams := urls.map (fun url => ⟨url, 1⟩)
  routing := ⟨strategy, ⟨30 * Clock.second, 10 * Clock.second, str "/health", 2, 3⟩⟩
  reliability := ⟨30 * Clock.second, 3, Clock.second, ⟨false, 0, 0⟩⟩

/-- Three failing checks and two that succeed. -/
def outage (url : GoString) : List Action :=
  [.recordHealthCheck url false, .recordHealthCheck url false, .recordHealthCheck url false,
    .recordHealthCheck url true, .recordHealthCheck url true]

/-- A backend in maintenance that fails and recovers is handed out. -/
theorem handed_out_in_maintenance :
  ∃ r t, (exampleConfig (str "round-robin") [str "http://vm-1:8428"]).validate oneHost = .ok () ∧
    Router.new (exampleConfig (str "round-robin") [str "http://vm-1:8428"]) = .ok r ∧
    machine.run (.start r)
      ([.setMaintenanceMode (str "http://vm-1:8428") true] ++ outage (str "http://vm-1:8428")
        ++ [.nextBackend]) = some t ∧
    ⟨str "http://vm-1:8428", true, some .healthy⟩ ∈ t.handedOut
  := by
  refine ⟨_, _, by decide +kernel, rfl, rfl, ?_⟩
  decide +kernel

/-- While one of two backends is in maintenance and the other fails and recovers, no backend in
maintenance is handed out. -/
theorem sticky_while_other_recovers :
  ∃ r, Router.new (exampleConfig (str "least-connections")
      [str "http://vm-1:8428", str "http://vm-2:8428"]) = .ok r ∧
    machine.Always Sticky (.start r)
      ([.setMaintenanceMode (str "http://vm-1:8428") true] ++ outage (str "http://vm-2:8428")
        ++ [.nextBackend])
  := ⟨_, rfl, @maintenance_sticky (exampleConfig (str "least-connections")
      [str "http://vm-1:8428", str "http://vm-2:8428"]) _ rfl (by decide) _ (by decide +kernel)⟩

/-! ### Agreement -/

/-- Of the states of the backends with one URL, those other than maintenance are unhealthy
exactly if the checker's state is. -/
def AgreesAt (states : List BackendState) (considered : Option BackendState) : Prop :=
  ∀ state ∈ states, state ≠ .maintenance →
    (state = .unhealthy ↔ considered = some .unhealthy)

/-- Balancer and checker agree on which backends are unhealthy, and no backend the checker
considered unhealthy was handed out. -/
structure Agrees (s : State) : Prop where
  backends : ∀ b ∈ s.router.loadBalancer.backends, b.state ≠ .maintenance →
    (b.state = .unhealthy ↔ s.checkerState b.url = some .unhealthy)
  handedOut : ∀ h ∈ s.handedOut, h.considered ≠ some .unhealthy

/-- Maintenance is left only by a backend the checker does not consider unhealthy, and a check
that fails turns the state of no URL that occurs more than once. -/
def KeepsAgreement (s : State) : Action → Prop
  | .setMaintenanceMode backend enabled =>
    enabled = false → s.checkerState backend ≠ some .unhealthy
  | .recordHealthCheck backendURL isHealthy =>
    isHealthy = false → s.router.healthChecker.Turns backendURL isHealthy →
      (s.router.loadBalancer.backends.map Backend.url).count backendURL ≤ 1
  | _ => True

instance (s : State) : ∀ a, Decidable (KeepsAgreement s a)
  | .setMaintenanceMode _ _ => inferInstanceAs (Decidable (_ → _ ≠ _))
  | .recordHealthCheck _ _ => inferInstanceAs (Decidable (_ → _ → _ ≤ _))
  | .nextBackend => isTrue trivial
  | .reportResult _ => isTrue trivial
  | .close => isTrue trivial

/-- The URLs are the same on both sides, and of several backends with one URL all but the
first are healthy. -/
structure Paired (s : State) : Prop where
  sameURLs : SameURLs s
  later : ∀ url, ∀ state ∈ (s.balancerStates url).tail, state = .healthy

theorem Paired.next {s : State} (h : Paired s) (a : Action) :
  Paired (next s a)
  := by
  constructor
  · apply sameURLs_next h.sameURLs
  · intro url state hstate
    rw [State.balancerStates, balancer_next, tail_statesOf_write] at hstate
    apply h.later url state hstate

/-- To begin with every backend is healthy, on both sides. -/
theorem healthy_start {config : Config} {r : Router} (hnew : Router.new config = .ok r) :
  ∀ b ∈ r.loadBalancer.backends ++ r.healthChecker.backends, b.state = .healthy
  := by
  obtain ⟨hbalancer, hchecker⟩ := Prod.mk.inj (Router.held_new hnew)
  intro b hb
  rw [hbalancer, hchecker, List.mem_append, or_self] at hb
  obtain ⟨u, -, rfl⟩ := List.mem_map.mp hb
  rfl

theorem paired_start {config : Config} {r : Router} (hnew : Router.new config = .ok r) :
  Paired (.start r)
  := by
  obtain ⟨hbalancer, hchecker⟩ := Prod.mk.inj (Router.held_new hnew)
  constructor
  · rw [SameURLs, State.start, hbalancer, hchecker]
  · intro url state hstate
    obtain ⟨b, hb, -, rfl⟩ := mem_statesOf.mp (List.mem_of_mem_tail hstate)
    apply healthy_start hnew b (List.mem_append_left _ hb)

theorem agrees_start {config : Config} {r : Router} (hnew : Router.new config = .ok r) :
  Agrees (.start r)
  := by
  constructor
  · intro b hb _
    rw [healthy_start hnew b (List.mem_append_left _ hb)]
    apply iff_of_false
    · rintro ⟨⟩
    · intro hunhealthy
      obtain ⟨b', hb', -, hstate⟩ := mem_statesOf.mp (List.mem_of_head? hunhealthy)
      rw [healthy_start hnew b' (List.mem_append_right _ hb')] at hstate
      cases hstate
  · rintro handed ⟨⟩

theorem agreesAt_iff (s : State) :
  (∀ b ∈ s.router.loadBalancer.backends, b.state ≠ .maintenance →
      (b.state = .unhealthy ↔ s.checkerState b.url = some .unhealthy))
    ↔ ∀ url, AgreesAt (s.balancerStates url) (s.checkerState url)
  := by
  constructor
  · intro h url state hstate
    obtain ⟨b, hb, rfl, rfl⟩ := mem_statesOf.mp hstate
    apply h b hb
  · intro h b hb
    apply h b.url b.state (mem_statesOf.mpr ⟨b, hb, rfl, rfl⟩)

/-- What is handed out in a step from a state of agreement is not considered unhealthy. -/
theorem considered_next {s : State} (h : Agrees s) (a : Action) :
  ∀ handed ∈ (next s a).handedOut, handed.considered ≠ some .unhealthy
  := by
  cases a with
  | setMaintenanceMode backend enabled => apply h.handedOut
  | recordHealthCheck backendURL isHealthy => apply h.handedOut
  | nextBackend =>
    intro handed hmem
    obtain hold | ⟨b, hb, husable, rfl⟩ := mem_recorded hmem
    · apply h.handedOut handed hold
    · intro hunhealthy
      have hstate : b.state ≠ .maintenance := by
        intro hmaintenance
        rw [isUsable, hmaintenance] at husable
        cases husable
      rw [isUsable, (h.backends b hb hstate).mpr hunhealthy] at husable
      cases husable
  | reportResult backendURL => apply h.handedOut
  | close => apply h.handedOut

theorem agreesAt_cons {state : BackendState} {states : List BackendState}
    {considered : Option BackendState} :
  AgreesAt (state :: states) considered
    ↔ (state ≠ .maintenance → (state = .unhealthy ↔ considered = some .unhealthy)) ∧
      AgreesAt states considered
  := List.forall_mem_cons

/-- From a state of agreement, a step that writes at most to the backends with one URL keeps
agreement exactly if it does for that URL. -/
theorem agrees_next_iff_at {s : State} (h : Agrees s) {a : Action} (backendURL : GoString)
    (hwritten : ∀ url state, written s a = some (url, state) → url = backendURL)
    (hturned : ∀ url state, turned s a = some (url, state) → url = backendURL) :
  Agrees (next s a)
    ↔ AgreesAt (statesOf backendURL (write (written s a) s.router.loadBalancer.backends))
        (statesOf backendURL (write (turned s a) s.router.healthChecker.backends)).head?
  := by
  rw [← balancer_next, ← checker_next]
  constructor
  · intro hnext
    apply (agreesAt_iff (next s a)).mp hnext.backends
  · intro hat
    refine ⟨(agreesAt_iff _).mpr ?_, considered_next h a⟩
    intro url
    by_cases heq : url = backendURL
    · rw [heq]
      apply hat
    · rw [State.balancerStates, State.checkerState, stateOf, balancer_next, checker_next,
        statesOf_write_of_ne (fun state hstate => heq (hwritten url state hstate)),
        statesOf_write_of_ne (fun state hstate => heq (hturned url state hstate))]
      apply (agreesAt_iff s).mp h.backends

/-- A step that writes nothing keeps agreement. -/
theorem agrees_next_of_not_written {s : State} (h : Agrees s) {a : Action}
    (hwritten : written s a = none) (hturned : turned s a = none) :
  Agrees (next s a)
  := by
  rw [agrees_next_iff_at h []]
  · rw [hwritten, hturned]
    apply (agreesAt_iff s).mp h.backends
  · rw [hwritten]
    rintro url state ⟨⟩
  · rw [hturned]
    rintro url state ⟨⟩

/-- Changing the maintenance mode keeps agreement unless it makes a backend healthy that the
checker considers unhealthy. -/
theorem agreesAt_setMaintenanceMode {s : State} (hpaired : Paired s) (h : Agrees s)
    (backend : GoString) (enabled : Bool) :
  AgreesAt ((s.balancerStates backend).modifyHead
      (fun _ => if enabled then .maintenance else .healthy)) (s.checkerState backend)
    ↔ (enabled = false → s.checkerState backend ≠ some .unhealthy)
  := by
  have hat := (agreesAt_iff s).mp h.backends backend
  rcases hstates : s.balancerStates backend with _ | ⟨first, states⟩
  · apply iff_of_true
    · rintro state ⟨⟩
    · intro _ hunhealthy
      apply hpaired.sameURLs.balancerStates_ne_nil hunhealthy hstates
  · rw [hstates] at hat
    rw [List.modifyHead_cons, agreesAt_cons, and_iff_left (agreesAt_cons.mp hat).2]
    cases enabled with
    | true => simp
    | false => simp

/-- A check that turns a state keeps agreement unless it fails and the URL occurs again. -/
theorem agreesAt_turned {s : State} (hpaired : Paired s) {backendURL : GoString}
    (hstates : s.balancerStates backendURL ≠ []) (isHealthy : Bool) :
  AgreesAt ((s.balancerStates backendURL).modifyHead (fun _ => target isHealthy))
      (some (target isHealthy))
    ↔ (isHealthy = false →
        (s.router.loadBalancer.backends.map Backend.url).count backendURL ≤ 1)
  := by
  have hlater := hpaired.later backendURL
  rw [← length_statesOf]
  change _ ↔ (_ → (s.balancerStates backendURL).length ≤ 1)
  obtain ⟨first, states, heq⟩ := List.exists_cons_of_ne_nil hstates
  rw [heq] at hlater
  rw [heq, List.modifyHead_cons, agreesAt_cons, and_iff_right (by simp)]
  cases isHealthy with
  | true =>
    apply iff_of_true
    · intro state hstate _
      rw [hlater state hstate]
      simp [target]
    · rintro ⟨⟩
  | false =>
    constructor
    · intro hat _
      rcases states with _ | ⟨second, states⟩
      · apply le_refl
      · have hsecond := hlater second List.mem_cons_self
        have hagree := hat second List.mem_cons_self
        rw [hsecond] at hagree
        cases (hagree (by decide)).mpr rfl
    · intro hcount state hstate
      have hpos := List.length_pos_of_mem hstate
      have hle := hcount rfl
      rw [List.length_cons] at hle
      omega

/-- A step keeps balancer and checker in agreement exactly if it does not leave maintenance for
a backend considered unhealthy, and does not turn a URL that occurs more than once. -/
theorem agrees_next_iff {s : State} (hpaired : Paired s) (h : Agrees s) (a : Action) :
  Agrees (next s a) ↔ KeepsAgreement s a
  := by
  cases a with
  | setMaintenanceMode backend enabled =>
    rw [agrees_next_iff_at h backend]
    · rw [written, statesOf_write_self]
      apply agreesAt_setMaintenanceMode hpaired h
    · rintro url state ⟨⟩
      rfl
    · rintro url state ⟨⟩
  | recordHealthCheck backendURL isHealthy =>
    by_cases hturns : s.router.healthChecker.Turns backendURL isHealthy
    · have hturned : turned s (.recordHealthCheck backendURL isHealthy)
          = some (backendURL, target isHealthy) := if_pos hturns
      have hwritten : written s (.recordHealthCheck backendURL isHealthy)
          = some (backendURL, target isHealthy) := hturned
      obtain ⟨⟨state, hstate, -⟩, -⟩ := id hturns
      have hstates := hpaired.sameURLs.balancerStates_ne_nil hstate
      have hhead : ((statesOf backendURL s.router.healthChecker.backends).modifyHead
          (fun _ => target isHealthy)).head? = some (target isHealthy) := by
        have hfirst : (statesOf backendURL s.router.healthChecker.backends).head? = some state :=
          hstate
        rw [List.head?_modifyHead, hfirst, Option.map_some]
      rw [agrees_next_iff_at h backendURL]
      · rw [hwritten, hturned, statesOf_write_self, statesOf_write_self, hhead]
        apply (agreesAt_turned hpaired hstates isHealthy).trans
        simp [KeepsAgreement, hturns]
      · rw [hwritten]
        rintro url state ⟨⟩
        rfl
      · rw [hturned]
        rintro url state ⟨⟩
        rfl
    · have hturned : turned s (.recordHealthCheck backendURL isHealthy) = none := if_neg hturns
      have hwritten : written s (.recordHealthCheck backendURL isHealthy) = none := hturned
      apply iff_of_true (agrees_next_of_not_written h hwritten hturned)
      intro _ hturns'
      apply absurd hturns' hturns
  | nextBackend => apply iff_of_true (agrees_next_of_not_written h rfl rfl) trivial
  | reportResult backendURL => apply iff_of_true (agrees_next_of_not_written h rfl rfl) trivial
  | close => apply iff_of_true (agrees_next_of_not_written h rfl rfl) trivial

/-- Along a run balancer and checker agree, and no backend considered unhealthy is handed out,
exactly if maintenance is left only by backends the checker does not consider unhealthy and no
URL that occurs more than once becomes unhealthy. -/
theorem balancer_agrees_iff {config : Config} {r : Router} (hnew : Router.new config = .ok r)
    (actions : List Action) :
  machine.Always Agrees (.start r) actions ↔ machine.Meets KeepsAgreement (.start r) actions
  := by
  apply Machine.always_iff_meets (J := Paired)
  · rintro s a t hs ⟨⟩
    apply hs.next
  · rintro s a t hs hP ⟨⟩
    apply agrees_next_iff hs hP
  · apply paired_start hnew
  · apply agrees_start hnew

/-- Of two upstreams with one URL the second is handed out while the checker considers the URL
unhealthy. -/
theorem handed_out_unhealthy :
  ∃ r t, (exampleConfig (str "weighted-round-robin")
      [str "http://vm-1:8428", str "http://vm-1:8428"]).validate oneHost = .ok () ∧
    Router.new (exampleConfig (str "weighted-round-robin")
      [str "http://vm-1:8428", str "http://vm-1:8428"]) = .ok r ∧
    machine.run (.start r)
      [.recordHealthCheck (str "http://vm-1:8428") false,
        .recordHealthCheck (str "http://vm-1:8428") false,
        .recordHealthCheck (str "http://vm-1:8428") false, .nextBackend] = some t ∧
    t.balancerStates (str "http://vm-1:8428") = [.unhealthy, .healthy] ∧
    t.checkerState (str "http://vm-1:8428") = some .unhealthy ∧
    ⟨str "http://vm-1:8428", false, some .unhealthy⟩ ∈ t.handedOut
  := by
  refine ⟨_, _, by decide +kernel, rfl, rfl, ?_⟩
  decide +kernel

/-- While one of two backends fails and recovers, and the other is taken out of service and
back, balancer and checker agree. -/
theorem agrees_through_outage :
  ∃ r, Router.new (exampleConfig (str "round-robin")
      [str "http://vm-1:8428", str "http://vm-2:8428"]) = .ok r ∧
    machine.Always Agrees (.start r)
      ([.setMaintenanceMode (str "http://vm-2:8428") true] ++ outage (str "http://vm-1:8428")
        ++ [.nextBackend, .setMaintenanceMode (str "http://vm-2:8428") false])
  := ⟨_, rfl, (@balancer_agrees_iff (exampleConfig (str "round-robin")
      [str "http://vm-1:8428", str "http://vm-2:8428"]) _ rfl _).mpr (by decide +kernel)⟩

end Routing

end Proxy

end VmProxyAuth
