import VmProxyAuth.Lib.Machine
import VmProxyAuth.Proxy.Health

/-!
# Connections of the least connections balancer

Any number of calls of `NextBackend` with the critical sections each of them goes through, the
reports of what they selected, and changes of the states of the backends in between.  The
counters are the numbers of the selections that are not reported yet, as long as every report
is of the first upstream with its URL and no counter is at its largest value.
-/

namespace VmProxyAuth

namespace Proxy

namespace LeastConnectionsBalancer

variable {lcb : LeastConnectionsBalancer}

/-- The index of the fewest connections among those found. -/
def fewest (lcb : LeastConnectionsBalancer) (first : ℕ) (rest : List ℕ) : ℕ :=
  rest.foldl lcb.searchStep first

/-- The counter at an index has a new value. -/
def setConns (lcb : LeastConnectionsBalancer) (idx : ℕ) (value : ℤ) : LeastConnectionsBalancer :=
  { lcb with activeConns := lcb.activeConns.set idx value }

theorem conns_setConns (idx : ℕ) (value : ℤ) (h : idx < lcb.activeConns.length) (i : ℕ) :
  (lcb.setConns idx value).conns i = if i = idx then value else lcb.conns i
  := getD_set lcb.activeConns h value i

theorem fewest_mem (lcb : LeastConnectionsBalancer) (first : ℕ) (rest : List ℕ) :
  lcb.fewest first rest ∈ first :: rest
  := lcb.foldl_searchStep_mem first rest

theorem conns_searchStep (lcb : LeastConnectionsBalancer) (selectedIdx idx : ℕ) :
  lcb.conns (lcb.searchStep selectedIdx idx) ≤ lcb.conns selectedIdx ∧
    lcb.conns (lcb.searchStep selectedIdx idx) ≤ lcb.conns idx
  := by
  rw [searchStep]
  split
  · omega
  · omega

/-- No index found has fewer connections. -/
theorem conns_fewest (lcb : LeastConnectionsBalancer) (first : ℕ) (rest : List ℕ) :
  ∀ i ∈ first :: rest, lcb.conns (lcb.fewest first rest) ≤ lcb.conns i
  := by
  induction rest generalizing first with
  | nil =>
    intro i hi
    obtain rfl := List.mem_singleton.mp hi
    apply le_refl
  | cons idx rest ih =>
    obtain ⟨hfirst, hidx⟩ := lcb.conns_searchStep first idx
    intro i hi
    rw [fewest, List.foldl_cons, ← fewest]
    obtain rfl | hi := List.mem_cons.mp hi
    · apply (ih _ _ List.mem_cons_self).trans hfirst
    · obtain rfl | hi := List.mem_cons.mp hi
      · apply (ih _ _ List.mem_cons_self).trans hidx
      · apply ih _ _ (List.mem_cons_of_mem _ hi)

/-- A report counts at the first backend with the URL. -/
theorem reportResult_of_findIdx {backendURL : GoString} {idx : ℕ}
    (h : lcb.backends.findIdx? (fun b => decide (b.url = backendURL)) = some idx)
    (hconns : 0 < lcb.conns idx) :
  lcb.reportResult backendURL = lcb.setConns idx (lcb.conns idx - 1)
  := by
  rw [reportResult, h]
  apply if_pos hconns

/-- A report leaves the counters of the other backends as they are. -/
theorem conns_reportResult_of_ne {backendURL : GoString} {idx i : ℕ}
    (h : lcb.backends.findIdx? (fun b => decide (b.url = backendURL)) = some idx) (hi : i ≠ idx) :
  (lcb.reportResult backendURL).conns i = lcb.conns i
  := by
  rw [reportResult, h]
  dsimp only
  split
  · simp only [conns, List.getD_eq_getElem?_getD, List.getElem?_set_ne (Ne.symm hi)]
  · rfl

theorem length_reportResult (lcb : LeastConnectionsBalancer) (backendURL : GoString) :
  (lcb.reportResult backendURL).activeConns.length = lcb.activeConns.length
  := by
  rw [reportResult]
  split
  · rfl
  · split
    · apply List.length_set
    · rfl

end LeastConnectionsBalancer

/-- The upstream at the index is the first one with its URL. -/
def FirstWithURL (backends : List Backend) (idx : ℕ) : Prop :=
  ∀ b, backends[idx]? = some b → ∀ j < idx, ∀ b', backends[j]? = some b' → b'.url ≠ b.url

theorem findIdx_of_getElem {backends : List Backend} {idx : ℕ} {b : Backend}
    (hb : backends[idx]? = some b) :
  ∃ j ≤ idx, backends.findIdx? (fun b' => decide (b'.url = b.url)) = some j ∧
    (j = idx ↔ FirstWithURL backends idx)
  := by
  obtain ⟨hidx, rfl⟩ := List.getElem?_eq_some_iff.mp hb
  cases hfind : backends.findIdx? (fun b' => decide (b'.url = backends[idx].url)) with
  | none =>
    have hnone := List.findIdx?_eq_none_iff.mp hfind _ (List.getElem_mem hidx)
    simp at hnone
  | some j =>
    obtain ⟨hj, hurl, hbefore⟩ := List.findIdx?_eq_some_iff_getElem.mp hfind
    have hle : j ≤ idx := by
      by_contra hlt
      apply hbefore idx (by omega)
      simp
    refine ⟨j, hle, rfl, ?_⟩
    constructor
    · rintro rfl b hb' i hi b' hb''
      obtain ⟨-, rfl⟩ := List.getElem?_eq_some_iff.mp hb'
      obtain ⟨-, rfl⟩ := List.getElem?_eq_some_iff.mp hb''
      simpa using hbefore i hi
    · intro hfirst
      by_contra hne
      apply hfirst _ hb j (by omega) _ (List.getElem?_eq_getElem hj)
      simpa using hurl

namespace LeastConnections

/-- Where a call of `NextBackend` stands: it has found no healthy backend, or it has found
the backends it chooses from. -/
inductive Pc where
  | fallback
  | choose (first : ℕ) (rest : List ℕ)

/-- The balancer, the calls of `NextBackend` under way, and the selections that are not
reported yet. -/
structure State where
  lcb : LeastConnectionsBalancer
  calls : List Pc
  outstanding : List ℕ

/-- A new balancer. -/
def init (backends : List Backend) : State := ⟨.new backends, [], []⟩

/-- The critical sections: a call of `NextBackend` lists the healthy backends, lists the
rate-limited ones if there are none, and chooses; a selection is reported; the state of a
backend changes. -/
inductive Action where
  | nextBackend
  | listFallback (call : ℕ)
  | choose (call : ℕ)
  | reportResult (idx : ℕ)
  | updateBackendState (backendURL : GoString) (newState : BackendState)

def step (s : State) : Action → Option State
  | .nextBackend =>
    if s.lcb.closed then some s
    else
      match indicesWhere (fun b => b.state.isAvailable) s.lcb.backends with
      | [] => some { s with calls := s.calls ++ [.fallback] }
      | first :: rest => some { s with calls := s.calls ++ [.choose first rest] }
  | .listFallback call =>
    match s.calls[call]? with
    | some .fallback =>
      match indicesWhere isFallback s.lcb.backends with
      | [] => some { s with calls := s.calls.eraseIdx call }
      | first :: rest => some { s with calls := s.calls.set call (.choose first rest) }
    | _ => none
  | .choose call =>
    match s.calls[call]? with
    | some (.choose first rest) =>
      some ⟨s.lcb.connect (s.lcb.fewest first rest), s.calls.eraseIdx call,
        s.outstanding ++ [s.lcb.fewest first rest]⟩
    | _ => none
  | .reportResult idx =>
    if idx ∈ s.outstanding then
      (s.lcb.backends[idx]?).map (fun b =>
        { s with
          lcb := s.lcb.reportResult b.url
          outstanding := s.outstanding.erase idx })
    else none
  | .updateBackendState backendURL newState =>
    some { s with lcb := s.lcb.updateBackendState backendURL newState }

def machine : Machine State Action := ⟨step⟩

/-- The counters are the numbers of selections that are not reported yet; a call chooses, of
the backends it has found, one with the fewest of them; and all counters are zero if there
are none. -/
structure Exact (s : State) : Prop where
  counts : ∀ i, s.lcb.conns i = s.outstanding.count i
  fewest : ∀ first rest, Pc.choose first rest ∈ s.calls →
    s.lcb.fewest first rest ∈ first :: rest ∧
    ∀ i ∈ first :: rest,
      s.outstanding.count (s.lcb.fewest first rest) ≤ s.outstanding.count i
  idle : s.outstanding = [] → ∀ i, s.lcb.conns i = 0

/-- A report is of the first upstream with its URL, and a call has found a backend with less
than the largest number of connections. -/
def Distinguishes (s : State) : Action → Prop
  | .nextBackend => True
  | .listFallback _ => True
  | .choose call => ∀ first rest, s.calls[call]? = some (.choose first rest) →
      ∃ i ∈ first :: rest, (s.outstanding.count i : ℤ) < maxInt32
  | .reportResult idx => FirstWithURL s.lcb.backends idx
  | .updateBackendState _ _ => True

/-- The indices found by calls are indices of counters. -/
structure Indexed (s : State) : Prop where
  length : s.lcb.activeConns.length = s.lcb.backends.length
  found : ∀ first rest, Pc.choose first rest ∈ s.calls →
    ∀ i ∈ first :: rest, i < s.lcb.backends.length

/-- The counters alone make a state exact. -/
theorem exact_iff_counts (s : State) :
  Exact s ↔ ∀ i, s.lcb.conns i = s.outstanding.count i
  := by
  constructor
  · intro h
    apply h.counts
  · intro h
    refine ⟨h, ?_, ?_⟩
    · intro first rest _
      use s.lcb.fewest_mem first rest
      intro i hi
      have hle := s.lcb.conns_fewest first rest i hi
      rw [h, h] at hle
      omega
    · intro hidle i
      rw [h, hidle]
      rfl

theorem indexed_init (backends : List Backend) :
  Indexed (init backends)
  := by
  constructor
  · apply List.length_map
  · intro first rest hmem
    cases hmem

theorem exact_init (backends : List Backend) :
  Exact (init backends)
  := by
  apply (exact_iff_counts _).mpr
  intro i
  rw [init, LeastConnectionsBalancer.new, LeastConnectionsBalancer.conns,
    List.getD_eq_getElem?_getD, List.getElem?_map]
  cases backends[i]? with
  | none => rfl
  | some b => rfl

/-! ### What a step does -/

/-- A call that lists backends changes the calls only, and finds indices of backends. -/
theorem step_list {s t : State} {a : Action}
    (ha : a = .nextBackend ∨ ∃ call, a = .listFallback call) (h : machine.step s a = some t) :
  ∃ calls, t = { s with calls := calls } ∧
    ∀ first rest, Pc.choose first rest ∈ calls →
      Pc.choose first rest ∈ s.calls ∨ ∀ i ∈ first :: rest, i < s.lcb.backends.length
  := by
  obtain rfl | ⟨call, rfl⟩ := ha
  · simp only [machine, step] at h
    split at h
    · obtain rfl := Option.some.inj h
      exact ⟨_, rfl, fun _ _ hmem => Or.inl hmem⟩
    · split at h
      · obtain rfl := Option.some.inj h
        refine ⟨_, rfl, ?_⟩
        intro first rest hmem
        apply Or.inl
        simpa using hmem
      · rename_i first rest hfound
        obtain rfl := Option.some.inj h
        refine ⟨_, rfl, ?_⟩
        intro first' rest' hmem
        obtain hmem | hmem := List.mem_append.mp hmem
        · apply Or.inl hmem
        · obtain ⟨rfl, rfl⟩ := Pc.choose.inj (List.mem_singleton.mp hmem)
          apply Or.inr
          intro i hi
          rw [← hfound] at hi
          apply lt_of_mem_indicesWhere hi
  · simp only [machine, step] at h
    split at h
    · split at h
      · obtain rfl := Option.some.inj h
        exact ⟨_, rfl, fun _ _ hmem => Or.inl (List.mem_of_mem_eraseIdx hmem)⟩
      · rename_i first rest hfound
        obtain rfl := Option.some.inj h
        refine ⟨_, rfl, ?_⟩
        intro first' rest' hmem
        obtain hmem | heq := List.mem_or_eq_of_mem_set hmem
        · apply Or.inl hmem
        · obtain ⟨rfl, rfl⟩ := Pc.choose.inj heq
          apply Or.inr
          intro i hi
          rw [← hfound] at hi
          apply lt_of_mem_indicesWhere hi
    · cases h

theorem step_choose {s t : State} {call : ℕ} (h : machine.step s (.choose call) = some t) :
  ∃ first rest, s.calls[call]? = some (.choose first rest) ∧
    t = ⟨s.lcb.connect (s.lcb.fewest first rest), s.calls.eraseIdx call,
      s.outstanding ++ [s.lcb.fewest first rest]⟩
  := by
  simp only [machine, step] at h
  split at h
  · rename_i first rest hcall
    exact ⟨first, rest, hcall, (Option.some.inj h).symm⟩
  · cases h

theorem step_reportResult {s t : State} {idx : ℕ}
    (h : machine.step s (.reportResult idx) = some t) :
  idx ∈ s.outstanding ∧ ∃ b, s.lcb.backends[idx]? = some b ∧
    t = ⟨s.lcb.reportResult b.url, s.calls, s.outstanding.erase idx⟩
  := by
  obtain ⟨hmem, h⟩ := Option.ite_none_right_eq_some.mp h
  obtain ⟨b, hb, rfl⟩ := Option.map_eq_some_iff.mp h
  exact ⟨hmem, b, hb, rfl⟩

/-- A call that is not disturbed is `NextBackend` as a whole: if it finds a backend, that is
the one selected and the balancer is left as the call leaves it. -/
theorem nextBackend_undisturbed {s : State} (hopen : s.lcb.closed = false)
    (hfound : candidateIndices s.lcb.backends ≠ []) :
  ∃ actions idx,
    machine.run s actions
      = some ⟨s.lcb.nextBackend.2, s.calls, s.outstanding ++ [idx]⟩ ∧
    s.lcb.nextBackend.1 = Selection.at s.lcb.backends idx
  := by
  have hafter : ∀ pc, (s.calls ++ [pc])[s.calls.length]? = some pc := by
    intro pc
    rw [List.getElem?_append_right (le_refl _), Nat.sub_self]
    rfl
  have herase : ∀ pc, (s.calls ++ [pc]).eraseIdx s.calls.length = s.calls := by
    intro pc
    rw [List.eraseIdx_append_of_length_le (le_refl _), Nat.sub_self]
    apply List.append_nil
  have hset : ∀ pc pc', (s.calls ++ [pc]).set s.calls.length pc' = s.calls ++ [pc'] := by
    intro pc pc'
    rw [List.set_append_right _ _ (le_refl _), Nat.sub_self]
    rfl
  rw [candidateIndices] at hfound
  cases hhealthy : indicesWhere (fun b => b.state.isAvailable) s.lcb.backends with
  | cons first rest =>
    use [.nextBackend, .choose s.calls.length], s.lcb.fewest first rest
    simp only [machine, Machine.run, step, hopen, hhealthy, hafter, herase, Option.bind_some,
      LeastConnectionsBalancer.nextBackend, candidateIndices, Bool.false_eq_true, if_false,
      reduceCtorEq]
    exact ⟨rfl, rfl⟩
  | nil =>
    rw [if_pos hhealthy] at hfound
    cases hfallback : indicesWhere isFallback s.lcb.backends with
    | nil => exact absurd hfallback hfound
    | cons first rest =>
      use [.nextBackend, .listFallback s.calls.length, .choose s.calls.length],
        s.lcb.fewest first rest
      simp only [machine, Machine.run, step, hopen, hhealthy, hfallback, hafter, hset, herase,
        Option.bind_some, LeastConnectionsBalancer.nextBackend, candidateIndices,
        Bool.false_eq_true, if_false, if_true]
      exact ⟨rfl, rfl⟩

/-! ### Runs -/

theorem indexed_step (s : State) (a : Action) (t : State) (hs : Indexed s)
    (ht : machine.step s a = some t) :
  Indexed t
  := by
  have hlist : ∀ a', (a' = .nextBackend ∨ ∃ call, a' = .listFallback call) →
      machine.step s a' = some t → Indexed t := by
    intro a' ha' ht'
    obtain ⟨calls, rfl, hfound⟩ := step_list ha' ht'
    use hs.length
    intro first rest hmem
    obtain hmem | hlt := hfound first rest hmem
    · apply hs.found first rest hmem
    · apply hlt
  cases a with
  | nextBackend => apply hlist _ (Or.inl rfl) ht
  | listFallback call => apply hlist _ (Or.inr ⟨call, rfl⟩) ht
  | choose call =>
    obtain ⟨first, rest, -, rfl⟩ := step_choose ht
    constructor
    · dsimp only [LeastConnectionsBalancer.connect]
      rw [List.length_set, hs.length]
    · intro first' rest' hmem
      apply hs.found first' rest' (List.mem_of_mem_eraseIdx hmem)
  | reportResult idx =>
    obtain ⟨-, b, -, rfl⟩ := step_reportResult ht
    constructor
    · dsimp only
      rw [s.lcb.length_reportResult, s.lcb.backends_reportResult, hs.length]
    · dsimp only
      rw [s.lcb.backends_reportResult]
      apply hs.found
  | updateBackendState backendURL newState =>
    obtain rfl := Option.some.inj ht
    have hlength := length_updateState backendURL newState s.lcb.backends
    constructor
    · dsimp only [LeastConnectionsBalancer.updateBackendState]
      rw [hlength, hs.length]
    · dsimp only [LeastConnectionsBalancer.updateBackendState]
      rw [hlength]
      apply hs.found

/-- A selection is counted as one more exactly when the counter is below its largest value,
which it is if one of the counters compared is. -/
theorem exact_choose {s t : State} {call : ℕ} (hs : Indexed s) (hexact : Exact s)
    (ht : machine.step s (.choose call) = some t) :
  Exact t ↔ Distinguishes s (.choose call)
  := by
  obtain ⟨first, rest, hcall, rfl⟩ := step_choose ht
  have hmem := s.lcb.fewest_mem first rest
  have hlt : s.lcb.fewest first rest < s.lcb.activeConns.length := by
    rw [hs.length]
    apply hs.found first rest (List.mem_of_getElem? hcall) _ hmem
  have hfewest := (hexact.fewest first rest (List.mem_of_getElem? hcall)).2
  have hcount := hexact.counts (s.lcb.fewest first rest)
  rw [exact_iff_counts]
  have hnext : ∀ i, (s.lcb.connect (s.lcb.fewest first rest)).conns i
      = if i = s.lcb.fewest first rest
        then wrap32 (s.outstanding.count (s.lcb.fewest first rest) + 1)
        else s.outstanding.count i := by
    intro i
    rw [← hcount, ← hexact.counts]
    apply LeastConnectionsBalancer.conns_setConns _ _ hlt
  constructor
  · intro h first' rest' hcall'
    obtain ⟨rfl, rfl⟩ := Pc.choose.inj (Option.some.inj (hcall.symm.trans hcall'))
    refine ⟨_, hmem, ?_⟩
    have hself := h (s.lcb.fewest first rest)
    rw [hnext, if_pos rfl, List.count_append, List.count_singleton_self] at hself
    have hbound := (wrap32_bounds (s.outstanding.count (s.lcb.fewest first rest) + 1)).2
    push_cast at hself
    omega
  · intro h i
    obtain ⟨j, hj, hjlt⟩ := h first rest hcall
    have hle := hfewest j hj
    dsimp only
    rw [hnext, List.count_append]
    by_cases hi : i = s.lcb.fewest first rest
    · rw [if_pos hi, hi, List.count_singleton_self, wrap32_of_bounds (by omega) (by omega)]
      push_cast
      rfl
    · rw [if_neg hi, List.count_eq_zero_of_not_mem (mt List.mem_singleton.mp hi)]
      rfl

/-- A report is counted where the selection was exactly if its upstream is the first one with
the URL. -/
theorem exact_reportResult {s t : State} {idx : ℕ} (hs : Indexed s) (hexact : Exact s)
    (ht : machine.step s (.reportResult idx) = some t) :
  Exact t ↔ Distinguishes s (.reportResult idx)
  := by
  obtain ⟨hmem, b, hb, rfl⟩ := step_reportResult ht
  obtain ⟨j, -, hfind, hfirst⟩ := findIdx_of_getElem hb
  have hpos : 0 < s.outstanding.count idx := List.count_pos_iff.mpr hmem
  rw [exact_iff_counts, Distinguishes, ← hfirst]
  constructor
  · intro h
    by_contra hne
    have hself := h idx
    dsimp only at hself
    rw [LeastConnectionsBalancer.conns_reportResult_of_ne hfind (Ne.symm hne), hexact.counts,
      List.count_erase_self] at hself
    omega
  · rintro rfl i
    have hlt : j < s.lcb.activeConns.length := by
      rw [hs.length]
      obtain ⟨hlt, -⟩ := List.getElem?_eq_some_iff.mp hb
      apply hlt
    dsimp only
    rw [LeastConnectionsBalancer.reportResult_of_findIdx hfind (by rw [hexact.counts]; omega),
      LeastConnectionsBalancer.conns_setConns _ _ hlt, hexact.counts, hexact.counts]
    by_cases hi : i = j
    · rw [if_pos hi, hi, List.count_erase_self]
      omega
    · rw [if_neg hi, List.count_erase_of_ne hi]

theorem exact_step (s : State) (a : Action) (t : State) (hs : Indexed s) (hexact : Exact s)
    (ht : machine.step s a = some t) :
  Exact t ↔ Distinguishes s a
  := by
  cases a with
  | nextBackend =>
    obtain ⟨calls, rfl, -⟩ := step_list (Or.inl rfl) ht
    apply iff_of_true _ trivial
    apply (exact_iff_counts _).mpr
    apply hexact.counts
  | listFallback call =>
    obtain ⟨calls, rfl, -⟩ := step_list (Or.inr ⟨call, rfl⟩) ht
    apply iff_of_true _ trivial
    apply (exact_iff_counts _).mpr
    apply hexact.counts
  | choose call => apply exact_choose hs hexact ht
  | reportResult idx => apply exact_reportResult hs hexact ht
  | updateBackendState backendURL newState =>
    obtain rfl := Option.some.inj ht
    apply iff_of_true _ trivial
    apply (exact_iff_counts _).mpr
    apply hexact.counts

/-- The counters are exact throughout a run exactly when every report in it is of the first
upstream with its URL, and every call finds a backend with less than the largest number of
connections. -/
theorem exact_iff_distinguishes (backends : List Backend) (actions : List Action) :
  machine.Always Exact (init backends) actions ↔
    machine.Meets Distinguishes (init backends) actions
  := Machine.always_iff_meets indexed_step exact_step (indexed_init backends)
    (exact_init backends)

/-- Two upstreams with the same URL are selected, and the second of them is reported: the
connection of the first one is no longer counted, and the one of the second still is. -/
theorem miscounted_with_equal_urls :
  ∃ t, machine.run (init [⟨str "http://a", 1, .healthy⟩, ⟨str "http://a", 1, .healthy⟩])
      [.nextBackend, .choose 0, .nextBackend, .choose 0, .reportResult 1] = some t ∧
    t.outstanding = [0] ∧ t.lcb.activeConns = [0, 1] ∧ ¬ Exact t
  := by
  refine ⟨_, rfl, rfl, rfl, ?_⟩
  intro h
  have hzero := h.counts 0
  revert hzero
  decide

end LeastConnections

end Proxy

end VmProxyAuth
