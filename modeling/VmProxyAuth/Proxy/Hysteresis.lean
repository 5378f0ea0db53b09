import VmProxyAuth.Lib.Streaks
import VmProxyAuth.Proxy.Health

/-!
# Hysteresis of the health checker

The state of a backend after any sequence of checks, read off the results of its own checks:
it is unhealthy if enough failures in a row were not followed by enough successes in a row.
The counters are the streaks at the end, and the changes of state that are reported are the
changes of the sequence of states.
-/

namespace VmProxyAuth

namespace Proxy

open Streaks

namespace Checker

/-! ### One check -/

/-- The state of a backend after a check that leaves the counters as given. -/
def decided (config : CheckerConfig) (isHealthy : Bool) (counters : Counters)
    (state : BackendState) : BackendState :=
  if reached config isHealthy counters then target isHealthy else state

theorem decided_of_reached {config : CheckerConfig} {isHealthy : Bool} {counters : Counters}
    (h : reached config isHealthy counters = true) (state : BackendState) :
  decided config isHealthy counters state = target isHealthy
  := if_pos h

theorem decided_of_not_reached {config : CheckerConfig} {isHealthy : Bool} {counters : Counters}
    (h : ¬ reached config isHealthy counters = true) (state : BackendState) :
  decided config isHealthy counters state = state
  := if_neg h

theorem reached_true_iff (config : CheckerConfig) (counters : Counters) :
  reached config true counters = true ↔
    config.healthyThreshold ≤ counters.consecutiveSuccesses
  := by
  rw [reached, if_pos rfl, decide_eq_true_iff]

theorem reached_false_iff (config : CheckerConfig) (counters : Counters) :
  reached config false counters = true ↔
    config.unhealthyThreshold ≤ counters.consecutiveFailures
  := by
  rw [reached, if_neg Bool.false_ne_true, decide_eq_true_iff]

/-- A check of a backend that is not in maintenance. -/
theorem recordHealthCheck_self {hc : Checker} {backendURL : GoString} {counters : Counters}
    {state : BackendState} (hcounters : hc.backendStates.lookup backendURL = some counters)
    (hstates : statesOf backendURL hc.backends = [state]) (hmaintenance : state ≠ .maintenance)
    (isHealthy : Bool) :
  hc.recordHealthCheck backendURL isHealthy
    = let next := decided hc.config isHealthy (counters.record isHealthy) state
      let counted :=
        hc.backendStates.insert backendURL (counters.record isHealthy)
      if next = state then ({ hc with backendStates := counted }, none)
      else
        ({ hc with
          backendStates := counted
          backends := updateState backendURL next hc.backends },
          some ⟨backendURL, state, next⟩)
  := by
  have hfind := hc.stateOf_eq_find? backendURL
  rw [stateOf, hstates, List.head?_cons] at hfind
  obtain ⟨b, hb, rfl⟩ := Option.map_eq_some_iff.mp hfind.symm
  rw [recordHealthCheck, hcounters]
  dsimp only
  rw [hb]
  dsimp only
  rw [if_neg hmaintenance, ← decided]
  apply ite_not

theorem recordHealthCheck_config (hc : Checker) (backendURL : GoString) (isHealthy : Bool) :
  (hc.recordHealthCheck backendURL isHealthy).1.config = hc.config
  := by
  rw [recordHealthCheck]
  split
  · rfl
  · dsimp only
    split
    · rfl
    · split
      · rfl
      · rw [apply_ite Prod.fst, apply_ite Checker.config, ite_self]

/-- A check of another URL reports no change of this one, and leaves its states and counters
as they are. -/
theorem recordHealthCheck_of_ne {url backendURL : GoString} (hne : url ≠ backendURL)
    (hc : Checker) (isHealthy : Bool) :
  (∀ change ∈ (hc.recordHealthCheck backendURL isHealthy).2, change.backendURL = backendURL) ∧
    statesOf url (hc.recordHealthCheck backendURL isHealthy).1.backends
      = statesOf url hc.backends ∧
    (hc.recordHealthCheck backendURL isHealthy).1.backendStates.lookup url
      = hc.backendStates.lookup url
  := by
  have hlookup : ∀ state, (hc.backendStates.insert backendURL state).lookup url
      = hc.backendStates.lookup url := by
    intro state
    rw [GoMap.lookup_insert_eq_ite, if_neg hne]
  rw [recordHealthCheck]
  split
  · simp
  · dsimp only
    split
    · simp [hlookup]
    · split
      · simp [hlookup]
      · rename_i b _ _
        generalize (if reached hc.config isHealthy _ then target isHealthy else b.state) = newState
        split
        · simp [hlookup, statesOf_updateState_of_ne hne]
        · simp [hlookup]

/-! ### Sequences of checks -/

/-- Checks of URLs, one after the other, with the changes of state they report. -/
def feed (hc : Checker) (probes : List (GoString × Bool)) : Checker × List StateChange :=
  probes.foldl
    (fun result probe =>
      let next := result.1.recordHealthCheck probe.1 probe.2
      (next.1, result.2 ++ next.2.toList))
    (hc, [])

theorem feed_concat (hc : Checker) (probes : List (GoString × Bool)) (probe : GoString × Bool) :
  hc.feed (probes ++ [probe])
    = (((hc.feed probes).1.recordHealthCheck probe.1 probe.2).1,
        (hc.feed probes).2 ++
          ((hc.feed probes).1.recordHealthCheck probe.1 probe.2).2.toList)
  := List.foldl_concat _ _ _ _

/-- The results of the checks of a URL. -/
def historyOf (backendURL : GoString) (probes : List (GoString × Bool)) : List Bool :=
  (probes.filter (fun probe => decide (probe.1 = backendURL))).map Prod.snd

/-- The states of a URL, before the checks and after each of them. -/
def statesDuring (hc : Checker) (backendURL : GoString) (probes : List (GoString × Bool)) :
    List BackendState :=
  probes.inits.filterMap (fun before => (hc.feed before).1.stateOf backendURL)

/-- The changes of state reported for a URL. -/
def changesOf (hc : Checker) (backendURL : GoString) (probes : List (GoString × Bool)) :
    List StateChange :=
  (hc.feed probes).2.filter (fun change => decide (change.backendURL = backendURL))

theorem historyOf_concat (backendURL : GoString) (probes : List (GoString × Bool))
    (probe : GoString × Bool) :
  historyOf backendURL (probes ++ [probe])
    = historyOf backendURL probes ++ if probe.1 = backendURL then [probe.2] else []
  := by
  rw [historyOf, List.filter_append, List.map_append]
  by_cases h : probe.1 = backendURL
  · simp [historyOf, h]
  · simp [historyOf, h]

theorem statesDuring_concat (hc : Checker) (backendURL : GoString)
    (probes : List (GoString × Bool)) (probe : GoString × Bool) :
  hc.statesDuring backendURL (probes ++ [probe])
    = hc.statesDuring backendURL probes ++
        ((hc.feed (probes ++ [probe])).1.stateOf backendURL).toList
  := by
  rw [statesDuring, List.inits_append, List.filterMap_append]
  congr 1

theorem changesOf_concat (hc : Checker) (backendURL : GoString)
    (probes : List (GoString × Bool)) (probe : GoString × Bool) :
  hc.changesOf backendURL (probes ++ [probe])
    = hc.changesOf backendURL probes ++
        ((hc.feed probes).1.recordHealthCheck probe.1 probe.2).2.toList.filter
          (fun change => decide (change.backendURL = backendURL))
  := by
  rw [changesOf, feed_concat, List.filter_append, ← changesOf]

/-- The failures last, for the thresholds of a configuration. -/
def FailureLasts (config : CheckerConfig) (history : List Bool) : Prop :=
  Lasting false config.unhealthyThreshold.toNat true config.healthyThreshold.toNat history

/-- What the checks of a backend come to. -/
structure Hysteresis (config : CheckerConfig) (hc : Checker) (backendURL : GoString)
    (probes : List (GoString × Bool)) : Prop where
  unhealthy_iff : statesOf backendURL (hc.feed probes).1.backends = [.unhealthy] ↔
    FailureLasts config (historyOf backendURL probes)
  healthy_iff : statesOf backendURL (hc.feed probes).1.backends = [.healthy] ↔
    ¬ FailureLasts config (historyOf backendURL probes)
  counters : (hc.feed probes).1.backendStates.lookup backendURL
    = some ⟨streak true (historyOf backendURL probes), streak false (historyOf backendURL probes)⟩
  reported : hc.changesOf backendURL probes
    = (changes (hc.statesDuring backendURL probes)).map
        (fun change => ⟨backendURL, change.1, change.2⟩)
  chained : Chained .healthy
    ((hc.changesOf backendURL probes).map (fun change => (change.oldState, change.newState)))

/-- A checker after some results for a URL. -/
structure Tracks (config : CheckerConfig) (hc : Checker) (backendURL : GoString)
    (history : List Bool) (state : BackendState) : Prop where
  config_eq : hc.config = config
  states : statesOf backendURL hc.backends = [state]
  counters : hc.backendStates.lookup backendURL
    = some ⟨streak true history, streak false history⟩
  state_eq : state = .unhealthy ∧ FailureLasts config history ∨
    state = .healthy ∧ ¬ FailureLasts config history

section

variable {config : CheckerConfig} {hc : Checker} {backendURL : GoString} {history : List Bool}
  {state : BackendState}

theorem Tracks.ne_maintenance (h : Tracks config hc backendURL history state) :
  state ≠ .maintenance
  := by
  obtain ⟨rfl, -⟩ | ⟨rfl, -⟩ := h.state_eq
  · decide
  · decide

theorem Tracks.stateOf_eq (h : Tracks config hc backendURL history state) :
  hc.stateOf backendURL = some state
  := by
  rw [stateOf, h.states]
  rfl

/-- The counters after one more result are the streaks. -/
theorem record_streak (history : List Bool) (isHealthy : Bool) :
  Counters.record ⟨streak true history, streak false history⟩ isHealthy
    = ⟨streak true (history ++ [isHealthy]), streak false (history ++ [isHealthy])⟩
  := by
  cases isHealthy with
  | true =>
    rw [streak_concat_self, streak_concat_of_ne (by decide)]
    rfl
  | false =>
    rw [streak_concat_self, streak_concat_of_ne (by decide)]
    rfl

/-- The state after one more result is the one the results call for. -/
theorem decided_spec (hhealthy : 1 ≤ config.healthyThreshold)
    (hunhealthy : 1 ≤ config.unhealthyThreshold) (isHealthy : Bool)
    (h : state = .unhealthy ∧ FailureLasts config history ∨
      state = .healthy ∧ ¬ FailureLasts config history) :
  let next := decided config isHealthy
    ⟨streak true (history ++ [isHealthy]), streak false (history ++ [isHealthy])⟩ state
  next = .unhealthy ∧ FailureLasts config (history ++ [isHealthy]) ∨
    next = .healthy ∧ ¬ FailureLasts config (history ++ [isHealthy])
  := by
  dsimp only
  rw [FailureLasts, lasting_concat, ← FailureLasts]
  cases isHealthy with
  | true =>
    -- a success completes no run of failures
    have hnone : ¬ config.unhealthyThreshold.toNat ≤ streak false (history ++ [true]) := by
      rw [streak_concat_of_ne (by decide)]
      omega
    rw [or_iff_right hnone]
    by_cases hreached : config.healthyThreshold.toNat ≤ streak true (history ++ [true])
    · rw [decided_of_reached ((reached_true_iff _ _).mpr (by dsimp only; omega))]
      apply Or.inr
      use rfl
      rintro ⟨-, hnot⟩
      apply hnot hreached
    · rw [decided_of_not_reached (mt (reached_true_iff _ _).mp (by dsimp only; omega)),
        and_iff_left hreached]
      apply h
  | false =>
    -- a failure completes no run of successes
    have hnone : ¬ config.healthyThreshold.toNat ≤ streak true (history ++ [false]) := by
      rw [streak_concat_of_ne (by decide)]
      omega
    rw [and_iff_left hnone]
    by_cases hreached : config.unhealthyThreshold.toNat ≤ streak false (history ++ [false])
    · rw [decided_of_reached ((reached_false_iff _ _).mpr (by dsimp only; omega))]
      exact Or.inl ⟨rfl, Or.inl hreached⟩
    · rw [decided_of_not_reached (mt (reached_false_iff _ _).mp (by dsimp only; omega)),
        or_iff_right hreached]
      apply h

/-- One more check of the URL: the state moves on as the results call for, and the change is
reported if there is one. -/
theorem Tracks.record_self (h : Tracks config hc backendURL history state)
    (hhealthy : 1 ≤ config.healthyThreshold) (hunhealthy : 1 ≤ config.unhealthyThreshold)
    (isHealthy : Bool) :
  ∃ next, Tracks config (hc.recordHealthCheck backendURL isHealthy).1 backendURL
      (history ++ [isHealthy]) next ∧
    (hc.recordHealthCheck backendURL isHealthy).2
      = if state = next then none else some ⟨backendURL, state, next⟩
  := by
  have hrecord := recordHealthCheck_self h.counters h.states h.ne_maintenance isHealthy
  have hnext := decided_spec hhealthy hunhealthy isHealthy h.state_eq
  rw [record_streak, h.config_eq] at hrecord
  dsimp only at hrecord hnext
  generalize decided config isHealthy
    ⟨streak true (history ++ [isHealthy]), streak false (history ++ [isHealthy])⟩ state
      = next at hrecord hnext
  use next
  have hinsert : (hc.backendStates.insert backendURL
      ⟨streak true (history ++ [isHealthy]), streak false (history ++ [isHealthy])⟩).lookup
        backendURL
      = some ⟨streak true (history ++ [isHealthy]), streak false (history ++ [isHealthy])⟩ :=
    AList.lookup_insert _
  by_cases hsame : next = state
  · rw [if_pos hsame] at hrecord
    rw [hrecord, if_pos hsame.symm]
    exact ⟨⟨rfl, hsame ▸ h.states, hinsert, hnext⟩, rfl⟩
  · rw [if_neg hsame] at hrecord
    rw [hrecord, if_neg (Ne.symm hsame)]
    refine ⟨⟨rfl, ?_, hinsert, hnext⟩, rfl⟩
    dsimp only
    rw [statesOf_updateState_self, h.states]
    rfl

/-- A check of another URL. -/
theorem Tracks.record_of_ne (h : Tracks config hc backendURL history state) {url : GoString}
    (hne : url ≠ backendURL) (isHealthy : Bool) :
  Tracks config (hc.recordHealthCheck url isHealthy).1 backendURL history state ∧
    (hc.recordHealthCheck url isHealthy).2.toList.filter
      (fun change => decide (change.backendURL = backendURL)) = []
  := by
  obtain ⟨hreported, hstates, hlookup⟩ := recordHealthCheck_of_ne (Ne.symm hne) hc isHealthy
  constructor
  · refine ⟨?_, ?_, ?_, h.state_eq⟩
    · rw [recordHealthCheck_config, h.config_eq]
    · rw [hstates, h.states]
    · rw [hlookup, h.counters]
  · apply List.filter_eq_nil_iff.mpr
    intro change hchange
    have hurl := hreported change (Option.mem_toList.mp hchange)
    simpa [hurl] using hne

end

/-- After any sequence of checks the checker has tracked the results of the URL, and has
reported the changes of its states. -/
theorem tracks_feed {config : CheckerConfig} {hc : Checker} {backendURL : GoString}
    (h : Tracks config hc backendURL [] .healthy) (hhealthy : 1 ≤ config.healthyThreshold)
    (hunhealthy : 1 ≤ config.unhealthyThreshold) (probes : List (GoString × Bool)) :
  ∃ earlier state,
    Tracks config (hc.feed probes).1 backendURL (historyOf backendURL probes) state ∧
    hc.statesDuring backendURL probes = earlier ++ [state] ∧
    (earlier ++ [state]).head? = some .healthy ∧
    hc.changesOf backendURL probes
      = (changes (earlier ++ [state])).map (fun change => ⟨backendURL, change.1, change.2⟩)
  := by
  induction probes using List.reverseRecOn with
  | nil =>
    refine ⟨[], .healthy, h, ?_, rfl, rfl⟩
    simp [statesDuring, feed, h.stateOf_eq]
  | append_singleton probes probe ih =>
    obtain ⟨earlier, state, htracks, hstates, hhead, hchanges⟩ := ih
    have hhead' : ∀ next, (earlier ++ [state] ++ [next]).head? = some .healthy := by
      intro next
      rw [List.head?_append_of_ne_nil _ (by simp), hhead]
    obtain ⟨url, isHealthy⟩ := probe
    rw [historyOf_concat, statesDuring_concat, changesOf_concat, hstates, hchanges, feed_concat]
    dsimp only
    by_cases hurl : url = backendURL
    · subst hurl
      obtain ⟨next, htracks', hreport⟩ := htracks.record_self hhealthy hunhealthy isHealthy
      use earlier ++ [state], next
      rw [if_pos rfl, htracks'.stateOf_eq, hreport, changes_concat, List.map_append]
      refine ⟨htracks', rfl, hhead' next, ?_⟩
      congr 1
      split
      · rfl
      · simp
    · obtain ⟨htracks', hreport⟩ := htracks.record_of_ne hurl isHealthy
      use earlier ++ [state], state
      rw [if_neg hurl, List.append_nil, htracks'.stateOf_eq, hreport, changes_concat, if_pos rfl]
      refine ⟨htracks', rfl, hhead' state, ?_⟩
      rw [List.append_nil, List.append_nil]

/-- A new checker has counted nothing. -/
theorem lookup_new (config : CheckerConfig) {backends : List Backend} {b : Backend}
    (hb : b ∈ backends) :
  (Checker.new config backends).backendStates.lookup b.url = some ⟨0, 0⟩
  := by
  have hfold : ∀ (l : List Backend) (m : GoMap GoString Counters),
      b ∈ l ∨ m.lookup b.url = some ⟨0, 0⟩ →
      (l.foldl (fun m b => m.insert b.url ⟨0, 0⟩) m).lookup b.url = some ⟨0, 0⟩ := by
    intro l
    induction l with
    | nil =>
      rintro m (hmem | hm)
      · cases hmem
      · apply hm
    | cons b' l ih =>
      intro m hm
      apply ih
      by_cases hurl : b.url = b'.url
      · apply Or.inr
        rw [GoMap.lookup_insert_eq_ite, if_pos hurl]
      · rw [GoMap.lookup_insert_eq_ite, if_neg hurl]
        obtain hmem | hm := hm
        · obtain rfl | hmem := List.mem_cons.mp hmem
          · exact absurd rfl hurl
          · apply Or.inl hmem
        · apply Or.inr hm
  apply hfold backends ∅ (Or.inl hb)

/-- A backend with a URL of its own has the only state of that URL. -/
theorem statesOf_of_nodup {backends : List Backend} {b : Backend}
    (hdistinct : (backends.map Backend.url).Nodup) (hb : b ∈ backends) :
  statesOf b.url backends = [b.state]
  := by
  have hlength := length_statesOf b.url backends
  rw [List.count_eq_one_of_mem hdistinct (List.mem_map_of_mem hb)] at hlength
  obtain ⟨state, hstate⟩ := List.length_eq_one_iff.mp hlength
  have hmem : b.state ∈ statesOf b.url backends := mem_statesOf.mpr ⟨b, hb, rfl, rfl⟩
  rw [hstate] at hmem ⊢
  rw [List.mem_singleton.mp hmem]

theorem withDefaults_healthyThreshold {config : CheckerConfig}
    (h : 1 ≤ config.healthyThreshold) :
  config.withDefaults.healthyThreshold = config.healthyThreshold
  := if_neg (by omega)

theorem withDefaults_unhealthyThreshold {config : CheckerConfig}
    (h : 1 ≤ config.unhealthyThreshold) :
  config.withDefaults.unhealthyThreshold = config.unhealthyThreshold
  := if_neg (by omega)

/-- A new checker tracks a healthy backend with a URL of its own. -/
theorem tracks_new {config : CheckerConfig} {backends : List Backend}
    (hunhealthy : 1 ≤ config.unhealthyThreshold)
    (hdistinct : (backends.map Backend.url).Nodup) {b : Backend} (hb : b ∈ backends)
    (hstate : b.state = .healthy) :
  Tracks config.withDefaults (Checker.new config backends) b.url [] .healthy
  := by
  refine ⟨rfl, ?_, lookup_new config hb, Or.inr ⟨rfl, ?_⟩⟩
  · rw [← hstate]
    apply statesOf_of_nodup hdistinct hb
  · apply not_lasting_nil
    rw [withDefaults_unhealthyThreshold hunhealthy]
    omega

/-- After any sequence of checks of a new checker, a backend with a URL of its own that was
healthy to begin with is unhealthy exactly when the failures last; its counters are the streaks
of its results, and the changes reported are those of its states, each starting from the state
the one before it ended with. -/
theorem hysteresis_feed (config : CheckerConfig) (backends : List Backend)
    (hhealthy : 1 ≤ config.healthyThreshold) (hunhealthy : 1 ≤ config.unhealthyThreshold)
    (hdistinct : (backends.map Backend.url).Nodup) (b : Backend) (hb : b ∈ backends)
    (hstate : b.state = .healthy) (probes : List (GoString × Bool)) :
  Hysteresis config (Checker.new config backends) b.url probes
  := by
  have hhealthy' := withDefaults_healthyThreshold hhealthy
  have hunhealthy' := withDefaults_unhealthyThreshold hunhealthy
  have hlasts : ∀ history,
      FailureLasts config.withDefaults history ↔ FailureLasts config history := by
    intro history
    rw [FailureLasts, FailureLasts, hhealthy', hunhealthy']
  obtain ⟨earlier, state, htracks, hstates, hhead, hchanges⟩ :=
    tracks_feed (tracks_new hunhealthy hdistinct hb hstate) (by omega) (by omega) probes
  have hstate_eq := htracks.state_eq
  rw [hlasts] at hstate_eq
  refine ⟨?_, ?_, htracks.counters, ?_, ?_⟩
  · rw [htracks.states]
    obtain ⟨rfl, hlast⟩ | ⟨rfl, hlast⟩ := hstate_eq
    · apply iff_of_true rfl hlast
    · apply iff_of_false (by decide) hlast
  · rw [htracks.states]
    obtain ⟨rfl, hlast⟩ | ⟨rfl, hlast⟩ := hstate_eq
    · apply iff_of_false (by decide) (not_not.mpr hlast)
    · apply iff_of_true rfl hlast
  · rw [hstates, hchanges]
  · rw [hchanges, List.map_map]
    cases hsequence : earlier ++ [state] with
    | nil =>
      rw [hsequence] at hhead
      cases hhead
    | cons first rest =>
      rw [hsequence] at hhead
      obtain rfl := Option.some.inj hhead
      have hid : (fun change : StateChange => (change.oldState, change.newState)) ∘
          (fun change : BackendState × BackendState => ⟨b.url, change.1, change.2⟩) = id := rfl
      rw [hid, List.map_id]
      apply chained_changes

/-- Two failures of the first of two backends, and a success of the second one in between. -/
theorem hysteresis_two_failures :
  (∀ b ∈ [(⟨str "http://a", 1, .healthy⟩ : Backend), ⟨str "http://b", 1, .healthy⟩],
      b.state = .healthy) ∧
    Hysteresis ⟨10, 5, 2, 2, []⟩
      (Checker.new ⟨10, 5, 2, 2, []⟩
        [⟨str "http://a", 1, .healthy⟩, ⟨str "http://b", 1, .healthy⟩])
      (str "http://a")
      [(str "http://a", false), (str "http://b", true), (str "http://a", false)]
  := by
  constructor
  · decide
  · exact hysteresis_feed _ _ (by decide) (by decide) (by decide)
      ⟨str "http://a", 1, .healthy⟩ List.mem_cons_self rfl _

end Checker

end Proxy

end VmProxyAuth
