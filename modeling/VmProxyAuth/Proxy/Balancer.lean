import VmProxyAuth.Domain

/-!
# Load balancers

The three balancers hold the backends with their states, and choose among those that are
healthy, or, if none is, among those that are rate-limited.  A balancer never changes the
state of a backend when it chooses one (`backends_nextBackend`), and what it chooses is a
backend it holds that is healthy or rate-limited (`selected_nextBackend`).
-/

namespace VmProxyAuth

namespace Proxy

/-- The largest value of an `int32`. -/
def maxInt32 : ℤ := 2147483647

/-- A value as an `int32`. -/
def wrap32 (x : ℤ) : ℤ := x.bmod 4294967296

theorem wrap32_bounds (x : ℤ) :
  -2147483648 ≤ wrap32 x ∧ wrap32 x ≤ maxInt32
  := by
  rw [wrap32, maxInt32, Int.bmod_def]
  split
  · omega
  · omega

/-- A value in the range of an `int32` is itself. -/
theorem wrap32_of_bounds {x : ℤ} (hlow : -2147483648 ≤ x) (hhigh : x ≤ maxInt32) :
  wrap32 x = x
  := by
  rw [maxInt32] at hhigh
  rw [wrap32, Int.bmod_def]
  split
  · omega
  · omega

/-- The value after the largest one is the smallest one. -/
theorem wrap32_maxInt32_add_one :
  wrap32 (maxInt32 + 1) = -2147483648
  := by decide

/-- `DefaultBackendWeight`. -/
def defaultBackendWeight : ℤ := 1

/-- What comes of a call of `NextBackend`: a backend, an error, or a panic by an index that is
out of range. -/
inductive Selection where
  | selected (b : Backend)
  | failed (err : GoError)
  | panicked

/-- The selection of the backend at an index. -/
def Selection.at (backends : List Backend) (index : ℕ) : Selection :=
  match backends[index]? with
  | some b => .selected b
  | none => .panicked

theorem Selection.mem_of_at {backends : List Backend} {index : ℕ} {b : Backend}
    (h : Selection.at backends index = .selected b) :
  backends[index]? = some b
  := by
  rw [Selection.at] at h
  split at h
  · rename_i b' hb'
    cases h
    apply hb'
  · cases h

/-- `UpdateBackendState` of each of the balancers: the state of the first backend with the URL
is changed. -/
def updateState (backendURL : GoString) (newState : BackendState) : List Backend → List Backend
  | [] => []
  | b :: backends =>
    if b.url = backendURL then { b with state := newState } :: backends
    else b :: updateState backendURL newState backends

/-- Whether a backend may be used if none is healthy. -/
def isFallback (b : Backend) : Bool := b.state.isAvailableWithFallback && !b.state.isAvailable

/-- Whether a backend may be used. -/
def isUsable (b : Backend) : Bool := b.state.isAvailableWithFallback

theorem isUsable_of_isAvailable {b : Backend} (h : b.state.isAvailable) :
  isUsable b
  := by
  rw [isUsable, BackendState.isAvailableWithFallback, Bool.or_eq_true]
  apply Or.inl h

theorem isUsable_of_isFallback {b : Backend} (h : isFallback b) :
  isUsable b
  := by
  rw [isFallback, Bool.and_eq_true] at h
  apply h.1

/-- The indices of the backends with a property. -/
def indicesWhere (p : Backend → Bool) (backends : List Backend) : List ℕ :=
  (List.range backends.length).filter (fun i => backends[i]?.any p)

/-- The backend at one of the indices has the property. -/
theorem getElem?_of_mem_indicesWhere {p : Backend → Bool} {backends : List Backend} {i : ℕ}
    {b : Backend} (hi : i ∈ indicesWhere p backends) (hb : backends[i]? = some b) :
  p b
  := by
  obtain ⟨-, hany⟩ := List.mem_filter.mp hi
  rw [hb] at hany
  apply hany

theorem lt_of_mem_indicesWhere {p : Backend → Bool} {backends : List Backend} {i : ℕ}
    (h : i ∈ indicesWhere p backends) :
  i < backends.length
  := List.mem_range.mp (List.mem_filter.mp h).1

/-- The entries of a list of counters after one of them is replaced. -/
theorem getD_set (counters : List ℤ) {idx : ℕ} (h : idx < counters.length) (value : ℤ) (i : ℕ) :
  (counters.set idx value).getD i 0 = if i = idx then value else counters.getD i 0
  := by
  rw [List.getD_eq_getElem?_getD, List.getD_eq_getElem?_getD, List.getElem?_set]
  by_cases hi : idx = i
  · rw [if_pos hi, if_pos h, if_pos hi.symm]
    rfl
  · rw [if_neg hi, if_neg (Ne.symm hi)]

/-! ### Round robin -/

/-- `RoundRobinBalancer`. -/
structure RoundRobinBalancer where
  backends : List Backend
  current : ℤ
  closed : Bool

namespace RoundRobinBalancer

/-- `NewRoundRobinBalancer`. -/
def new (backends : List Backend) : RoundRobinBalancer := ⟨backends, -1, false⟩

/-- `getHealthyBackends`. -/
def getHealthyBackends (rrb : RoundRobinBalancer) : List Backend :=
  rrb.backends.filter (fun b => b.state.isAvailable)

/-- `getFallbackBackends`. -/
def getFallbackBackends (rrb : RoundRobinBalancer) : List Backend :=
  rrb.backends.filter isFallback

/-- The backends `NextBackend` chooses from. -/
def candidates (rrb : RoundRobinBalancer) : List Backend :=
  if rrb.getHealthyBackends = [] then rrb.getFallbackBackends else rrb.getHealthyBackends

/-- `NextBackend`. -/
def nextBackend (rrb : RoundRobinBalancer) : Selection × RoundRobinBalancer :=
  if rrb.closed then (.failed (.app AppError.noHealthyBackends), rrb)
  else
    match rrb.candidates with
    | [] => (.failed (.app AppError.noHealthyBackends), rrb)
    | [b] => (.selected b, rrb)
    | candidates =>
      if maxInt32 < candidates.length then (.failed (.app AppError.noHealthyBackends), rrb)
      else
        let current := wrap32 (rrb.current + 1)
        let index := current.tmod candidates.length
        (if index < 0 then .panicked else Selection.at candidates index.toNat,
          { rrb with current := current })

/-- `UpdateBackendState`. -/
def updateBackendState (rrb : RoundRobinBalancer) (backendURL : GoString)
    (newState : BackendState) : RoundRobinBalancer :=
  { rrb with backends := updateState backendURL newState rrb.backends }

theorem mem_candidates {rrb : RoundRobinBalancer} {b : Backend} (h : b ∈ rrb.candidates) :
  b ∈ rrb.backends ∧ isUsable b
  := by
  rw [candidates] at h
  split at h
  · obtain ⟨hmem, hfallback⟩ := List.mem_filter.mp h
    use hmem
    apply isUsable_of_isFallback hfallback
  · obtain ⟨hmem, havailable⟩ := List.mem_filter.mp h
    use hmem
    apply isUsable_of_isAvailable havailable

theorem selected_nextBackend {rrb : RoundRobinBalancer} {b : Backend}
    (h : rrb.nextBackend.1 = .selected b) :
  b ∈ rrb.backends ∧ isUsable b
  := by
  apply mem_candidates
  rw [nextBackend] at h
  split at h
  · cases h
  · split at h
    · cases h
    · rename_i b' hcandidates
      cases h
      rw [hcandidates]
      apply List.mem_singleton_self
    · split at h
      · cases h
      · dsimp only at h
        split at h
        · cases h
        · apply List.mem_of_getElem? (Selection.mem_of_at h)

theorem backends_nextBackend (rrb : RoundRobinBalancer) :
  rrb.nextBackend.2.backends = rrb.backends
  := by
  rw [nextBackend]
  split
  · rfl
  · split
    · rfl
    · rfl
    · split
      · rfl
      · rfl

end RoundRobinBalancer

/-! ### Candidates by index

The other two balancers choose among indices. -/

/-- The indices `NextBackend` chooses from. -/
def candidateIndices (backends : List Backend) : List ℕ :=
  if indicesWhere (fun b => b.state.isAvailable) backends = [] then
    indicesWhere isFallback backends
  else indicesWhere (fun b => b.state.isAvailable) backends

/-- The backend at the index of a candidate may be used. -/
theorem isUsable_of_mem_candidateIndices {backends : List Backend} {i : ℕ} {b : Backend}
    (hi : i ∈ candidateIndices backends) (hb : Selection.at backends i = .selected b) :
  b ∈ backends ∧ isUsable b
  := by
  have hget := Selection.mem_of_at hb
  use List.mem_of_getElem? hget
  rw [candidateIndices] at hi
  split at hi
  · apply isUsable_of_isFallback (getElem?_of_mem_indicesWhere hi hget)
  · apply isUsable_of_isAvailable
    apply getElem?_of_mem_indicesWhere (p := fun b => b.state.isAvailable) hi hget

/-! ### Weighted round robin -/

/-- `WeightedRoundRobinBalancer`. -/
structure WeightedRoundRobinBalancer where
  backends : List Backend
  weights : List ℤ
  currentWeights : List ℤ
  closed : Bool

namespace WeightedRoundRobinBalancer

/-- `NewWeightedRoundRobinBalancer`. -/
def new (backends : List Backend) : WeightedRoundRobinBalancer :=
  ⟨backends, backends.map (fun b => if b.weight ≤ 0 then defaultBackendWeight else b.weight),
    backends.map (fun _ => 0), false⟩

/-- A weight added to a sum of weights, with the default weight in its place if the sum would
overflow. -/
def addWeight (sum weight : ℤ) : ℤ :=
  wrap32 (sum + if maxInt32 - weight < sum then defaultBackendWeight else weight)

/-- The total weight of the backends `selectByWeight` chooses from. -/
def totalHealthyWeight (wrr : WeightedRoundRobinBalancer) (healthyIndices : List ℕ) : ℤ :=
  healthyIndices.foldl (fun total idx =>
    let weight := wrr.weights.getD idx 0
    if maxInt32 < weight then total else addWeight total weight) 0

/-- The search of `selectByWeight`: the current weights, the index found so far, and its
current weight. -/
structure Search where
  currentWeights : List ℤ
  bestIdx : Option ℕ
  maxCurrentWeight : ℤ

/-- One round of the search. -/
def searchStep (wrr : WeightedRoundRobinBalancer) (search : Search) (idx : ℕ) : Search :=
  let weight := wrr.weights.getD idx 0
  if maxInt32 < weight then search
  else
    let current := addWeight (search.currentWeights.getD idx 0) weight
    let currentWeights := search.currentWeights.set idx current
    if search.maxCurrentWeight < current then ⟨currentWeights, some idx, current⟩
    else { search with currentWeights := currentWeights }

/-- `selectByWeight`. -/
def selectByWeight (wrr : WeightedRoundRobinBalancer) (healthyIndices : List ℕ) :
    Option ℕ × WeightedRoundRobinBalancer :=
  let search := healthyIndices.foldl wrr.searchStep ⟨wrr.currentWeights, none, -1⟩
  match search.bestIdx with
  | none => (none, { wrr with currentWeights := search.currentWeights })
  | some bestIdx =>
    let reduced :=
      wrap32 (search.currentWeights.getD bestIdx 0 - wrr.totalHealthyWeight healthyIndices)
    (some bestIdx, { wrr with currentWeights := search.currentWeights.set bestIdx reduced })

/-- `NextBackend`. -/
def nextBackend (wrr : WeightedRoundRobinBalancer) : Selection × WeightedRoundRobinBalancer :=
  if wrr.closed then (.failed (.app AppError.noHealthyBackends), wrr)
  else
    match candidateIndices wrr.backends with
    | [] => (.failed (.app AppError.noHealthyBackends), wrr)
    | [idx] => (Selection.at wrr.backends idx, wrr)
    | healthyIndices =>
      let selection := wrr.selectByWeight healthyIndices
      -- without a best index the backend at -1 is asked for
      match selection.1 with
      | none => (.panicked, selection.2)
      | some selectedIdx => (Selection.at wrr.backends selectedIdx, selection.2)

/-- `UpdateBackendState`. -/
def updateBackendState (wrr : WeightedRoundRobinBalancer) (backendURL : GoString)
    (newState : BackendState) : WeightedRoundRobinBalancer :=
  { wrr with backends := updateState backendURL newState wrr.backends }

/-- The index a search ends with is the one it started with or one of those searched. -/
theorem bestIdx_foldl (wrr : WeightedRoundRobinBalancer) (indices : List ℕ) (search : Search)
    {i : ℕ} (h : (indices.foldl wrr.searchStep search).bestIdx = some i) :
  search.bestIdx = some i ∨ i ∈ indices
  := by
  induction indices generalizing search with
  | nil => apply Or.inl h
  | cons idx indices ih =>
    obtain hstep | hmem := ih (wrr.searchStep search idx) h
    · rw [searchStep] at hstep
      dsimp only at hstep
      split at hstep
      · apply Or.inl hstep
      · split at hstep
        · obtain rfl : idx = i := Option.some.inj hstep
          apply Or.inr List.mem_cons_self
        · apply Or.inl hstep
    · apply Or.inr (List.mem_cons_of_mem idx hmem)

theorem selectByWeight_mem {wrr : WeightedRoundRobinBalancer} {indices : List ℕ} {i : ℕ}
    (h : (wrr.selectByWeight indices).1 = some i) :
  i ∈ indices
  := by
  rw [selectByWeight] at h
  dsimp only at h
  split at h
  · cases h
  · rename_i bestIdx hbest
    obtain rfl : bestIdx = i := Option.some.inj h
    obtain hnone | hmem := wrr.bestIdx_foldl indices _ hbest
    · cases hnone
    · apply hmem

theorem backends_selectByWeight (wrr : WeightedRoundRobinBalancer) (indices : List ℕ) :
  (wrr.selectByWeight indices).2.backends = wrr.backends
  := by
  rw [selectByWeight]
  dsimp only
  split
  · rfl
  · rfl

theorem selected_nextBackend {wrr : WeightedRoundRobinBalancer} {b : Backend}
    (h : wrr.nextBackend.1 = .selected b) :
  b ∈ wrr.backends ∧ isUsable b
  := by
  rw [nextBackend] at h
  split at h
  · cases h
  · split at h
    · cases h
    · rename_i idx hcandidates
      apply isUsable_of_mem_candidateIndices _ h
      rw [hcandidates]
      apply List.mem_singleton_self
    · dsimp only at h
      split at h
      · cases h
      · rename_i hselected
        apply isUsable_of_mem_candidateIndices (selectByWeight_mem hselected) h

theorem backends_nextBackend (wrr : WeightedRoundRobinBalancer) :
  wrr.nextBackend.2.backends = wrr.backends
  := by
  rw [nextBackend]
  split
  · rfl
  · split
    · rfl
    · rfl
    · dsimp only
      split
      · apply backends_selectByWeight
      · apply backends_selectByWeight

end WeightedRoundRobinBalancer

/-! ### Least connections -/

/-- `LeastConnectionsBalancer`. -/
structure LeastConnectionsBalancer where
  backends : List Backend
  activeConns : List ℤ
  closed : Bool

namespace LeastConnectionsBalancer

/-- `NewLeastConnectionsBalancer`. -/
def new (backends : List Backend) : LeastConnectionsBalancer :=
  ⟨backends, backends.map (fun _ => 0), false⟩

/-- The number of active connections at an index. -/
def conns (lcb : LeastConnectionsBalancer) (idx : ℕ) : ℤ := lcb.activeConns.getD idx 0

/-- One round of the search for the index with the fewest connections. -/
def searchStep (lcb : LeastConnectionsBalancer) (selectedIdx idx : ℕ) : ℕ :=
  if lcb.conns idx < lcb.conns selectedIdx then idx else selectedIdx

/-- One more connection at an index. -/
def connect (lcb : LeastConnectionsBalancer) (idx : ℕ) : LeastConnectionsBalancer :=
  { lcb with activeConns := lcb.activeConns.set idx (wrap32 (lcb.conns idx + 1)) }

/-- `NextBackend`. -/
def nextBackend (lcb : LeastConnectionsBalancer) : Selection × LeastConnectionsBalancer :=
  if lcb.closed then (.failed (.app AppError.noHealthyBackends), lcb)
  else
    match candidateIndices lcb.backends with
    | [] => (.failed (.app AppError.noHealthyBackends), lcb)
    | idx :: indices =>
      let selectedIdx := indices.foldl lcb.searchStep idx
      (Selection.at lcb.backends selectedIdx, lcb.connect selectedIdx)

/-- `ReportResult`: one connection less at the first backend with the URL. -/
def reportResult (lcb : LeastConnectionsBalancer) (backendURL : GoString) :
    LeastConnectionsBalancer :=
  match lcb.backends.findIdx? (fun b => decide (b.url = backendURL)) with
  | none => lcb
  | some idx =>
    if 0 < lcb.conns idx then
      { lcb with activeConns := lcb.activeConns.set idx (lcb.conns idx - 1) }
    else lcb

/-- `UpdateBackendState`. -/
def updateBackendState (lcb : LeastConnectionsBalancer) (backendURL : GoString)
    (newState : BackendState) : LeastConnectionsBalancer :=
  { lcb with backends := updateState backendURL newState lcb.backends }

theorem searchStep_eq_or (lcb : LeastConnectionsBalancer) (selectedIdx idx : ℕ) :
  lcb.searchStep selectedIdx idx = selectedIdx ∨ lcb.searchStep selectedIdx idx = idx
  := by
  rw [searchStep]
  split
  · apply Or.inr rfl
  · apply Or.inl rfl

/-- The search ends with the index it started with or one of those searched. -/
theorem foldl_searchStep_mem (lcb : LeastConnectionsBalancer) (idx : ℕ) (indices : List ℕ) :
  indices.foldl lcb.searchStep idx ∈ idx :: indices
  := by
  induction indices generalizing idx with
  | nil => apply List.mem_singleton_self
  | cons i indices ih =>
    rw [List.foldl_cons]
    obtain heq | hrest := List.mem_cons.mp (ih (lcb.searchStep idx i))
    · rw [heq]
      obtain hstep | hstep := lcb.searchStep_eq_or idx i
      · rw [hstep]
        apply List.mem_cons_self
      · rw [hstep]
        apply List.mem_cons_of_mem idx List.mem_cons_self
    · apply List.mem_cons_of_mem idx (List.mem_cons_of_mem i hrest)

theorem selected_nextBackend {lcb : LeastConnectionsBalancer} {b : Backend}
    (h : lcb.nextBackend.1 = .selected b) :
  b ∈ lcb.backends ∧ isUsable b
  := by
  rw [nextBackend] at h
  split at h
  · cases h
  · split at h
    · cases h
    · rename_i idx indices hcandidates
      apply isUsable_of_mem_candidateIndices _ h
      rw [hcandidates]
      apply foldl_searchStep_mem

theorem backends_nextBackend (lcb : LeastConnectionsBalancer) :
  lcb.nextBackend.2.backends = lcb.backends
  := by
  rw [nextBackend]
  split
  · rfl
  · split
    · rfl
    · rfl

theorem backends_reportResult (lcb : LeastConnectionsBalancer) (backendURL : GoString) :
  (lcb.reportResult backendURL).backends = lcb.backends
  := by
  rw [reportResult]
  split
  · rfl
  · split
    · rfl
    · rfl

end LeastConnectionsBalancer

/-! ### The balancer of a service -/

/-- `LoadBalancer`: one of the three. -/
inductive LoadBalancer where
  | roundRobin (rrb : RoundRobinBalancer)
  | weighted (wrr : WeightedRoundRobinBalancer)
  | leastConnections (lcb : LeastConnectionsBalancer)

namespace LoadBalancer

/-- The backends a balancer holds. -/
def backends : LoadBalancer → List Backend
  | roundRobin rrb => rrb.backends
  | weighted wrr => wrr.backends
  | leastConnections lcb => lcb.backends

/-- `NextBackend`. -/
def nextBackend : LoadBalancer → Selection × LoadBalancer
  | roundRobin rrb => (rrb.nextBackend.1, roundRobin rrb.nextBackend.2)
  | weighted wrr => (wrr.nextBackend.1, weighted wrr.nextBackend.2)
  | leastConnections lcb => (lcb.nextBackend.1, leastConnections lcb.nextBackend.2)

/-- `ReportResult`: only the least connections balancer keeps count. -/
def reportResult (backendURL : GoString) : LoadBalancer → LoadBalancer
  | roundRobin rrb => roundRobin rrb
  | weighted wrr => weighted wrr
  | leastConnections lcb => leastConnections (lcb.reportResult backendURL)

/-- `UpdateBackendState`. -/
def updateBackendState (backendURL : GoString) (newState : BackendState) :
    LoadBalancer → LoadBalancer
  | roundRobin rrb => roundRobin (rrb.updateBackendState backendURL newState)
  | weighted wrr => weighted (wrr.updateBackendState backendURL newState)
  | leastConnections lcb => leastConnections (lcb.updateBackendState backendURL newState)

/-- `Close`. -/
def close : LoadBalancer → LoadBalancer
  | roundRobin rrb => roundRobin { rrb with closed := true }
  | weighted wrr => weighted { wrr with closed := true }
  | leastConnections lcb => leastConnections { lcb with closed := true }

/-- `CreateLoadBalancer`. -/
def create (strategy : GoString) (backends : List Backend) : Except GoError LoadBalancer :=
  if backends = [] then
    .error (.errorf "cannot create load balancer with empty backends list" [])
  else if strategy = str "round-robin" then .ok (roundRobin (.new backends))
  else if strategy = str "weighted-round-robin" then .ok (weighted (.new backends))
  else if strategy = str "least-connections" then .ok (leastConnections (.new backends))
  else .error (.errorf "unsupported load balancing strategy: %s" [.string strategy])

/-- What a balancer selects is a backend it holds that may be used. -/
theorem selected_nextBackend {lb : LoadBalancer} {b : Backend}
    (h : lb.nextBackend.1 = .selected b) :
  b ∈ lb.backends ∧ isUsable b
  := by
  cases lb with
  | roundRobin rrb => apply RoundRobinBalancer.selected_nextBackend h
  | weighted wrr => apply WeightedRoundRobinBalancer.selected_nextBackend h
  | leastConnections lcb => apply LeastConnectionsBalancer.selected_nextBackend h

/-- Selecting a backend changes the state of none. -/
@[simp]
theorem backends_nextBackend (lb : LoadBalancer) :
  lb.nextBackend.2.backends = lb.backends
  := by
  cases lb with
  | roundRobin rrb => apply RoundRobinBalancer.backends_nextBackend
  | weighted wrr => apply WeightedRoundRobinBalancer.backends_nextBackend
  | leastConnections lcb => apply LeastConnectionsBalancer.backends_nextBackend

@[simp]
theorem backends_reportResult (lb : LoadBalancer) (backendURL : GoString) :
  (lb.reportResult backendURL).backends = lb.backends
  := by
  cases lb with
  | roundRobin rrb => rfl
  | weighted wrr => rfl
  | leastConnections lcb => apply LeastConnectionsBalancer.backends_reportResult

@[simp]
theorem backends_updateBackendState (lb : LoadBalancer) (backendURL : GoString)
    (newState : BackendState) :
  (lb.updateBackendState backendURL newState).backends
    = updateState backendURL newState lb.backends
  := by
  cases lb with
  | roundRobin rrb => rfl
  | weighted wrr => rfl
  | leastConnections lcb => rfl

@[simp]
theorem backends_close (lb : LoadBalancer) :
  lb.close.backends = lb.backends
  := by
  cases lb with
  | roundRobin rrb => rfl
  | weighted wrr => rfl
  | leastConnections lcb => rfl

/-- There is a balancer for every strategy and non-empty list of backends. -/
theorem exists_create {strategy : GoString} {backends : List Backend}
    (hstrategy :
      strategy ∈ [str "round-robin", str "weighted-round-robin", str "least-connections"])
    (hbackends : backends ≠ []) :
  ∃ lb, create strategy backends = .ok lb
  := by
  rw [create, if_neg hbackends]
  split
  · exact ⟨_, rfl⟩
  · split
    · exact ⟨_, rfl⟩
    · split
      · exact ⟨_, rfl⟩
      · simp_all

/-- A new balancer holds the backends it is given. -/
theorem backends_create {strategy : GoString} {backends : List Backend} {lb : LoadBalancer}
    (h : create strategy backends = .ok lb) :
  lb.backends = backends
  := by
  rw [create] at h
  split at h
  · cases h
  · split at h
    · cases h
      rfl
    · split at h
      · cases h
        rfl
      · split at h
        · cases h
          rfl
        · cases h

end LoadBalancer

end Proxy

end VmProxyAuth
