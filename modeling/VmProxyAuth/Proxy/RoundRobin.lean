import VmProxyAuth.Lib.Machine
import VmProxyAuth.Lib.Rotation
import VmProxyAuth.Proxy.Balancer

/-!
# Rounds of the round-robin balancer

A run of calls of `NextBackend` with changes of the states of the backends between them.
The calls are recorded with the balancer as each of them found it.  As long as the counter
does not become negative, every call selects one of the available backends, and any `n`
calls in a row with the same `n` backends select each of them once; the counter becomes
negative after `2 ^ 31` calls.
-/

namespace VmProxyAuth

/-- What of a backend does not change: its URL and its weight. -/
def Backend.upstream (b : Backend) : GoString × ℤ := (b.url, b.weight)

namespace Proxy

/-- The upstream of the backend selected. -/
def Selection.upstream : Selection → Option (GoString × ℤ)
  | .selected b => some b.upstream
  | .failed _ => none
  | .panicked => none

namespace RoundRobinBalancer

/-- The index the counter comes to at the next call. -/
def nextIndex (rrb : RoundRobinBalancer) : ℕ :=
  (wrap32 (rrb.current + 1) % rrb.candidates.length).toNat

/-- If there are two backends or more to choose from, their number is an `int32`, and the
counter comes to a value that is not negative or a multiple of that number. -/
def Steady (rrb : RoundRobinBalancer) : Prop :=
  2 ≤ rrb.candidates.length →
    (rrb.candidates.length : ℤ) ≤ maxInt32 ∧
    (0 ≤ wrap32 (rrb.current + 1) ∨
      (rrb.candidates.length : ℤ) ∣ wrap32 (rrb.current + 1))

/-- If there is a backend to choose from, one of those is selected. -/
def Selects (rrb : RoundRobinBalancer) : Prop :=
  rrb.candidates ≠ [] → ∃ b ∈ rrb.candidates, rrb.nextBackend.1 = .selected b

variable {rrb : RoundRobinBalancer}

theorem nextIndex_lt (h : rrb.candidates ≠ []) :
  rrb.nextIndex < rrb.candidates.length
  := by
  have hpos : 0 < rrb.candidates.length := List.length_pos_iff.mpr h
  have hlt := Int.emod_lt_of_pos (wrap32 (rrb.current + 1)) (Int.natCast_pos.mpr hpos)
  rw [nextIndex]
  omega

/-- A call with two backends or more. -/
theorem nextBackend_of_two (hopen : rrb.closed = false) (htwo : 2 ≤ rrb.candidates.length) :
  rrb.nextBackend
    = if maxInt32 < rrb.candidates.length then
        (.failed (.app AppError.noHealthyBackends), rrb)
      else
        (if (wrap32 (rrb.current + 1)).tmod rrb.candidates.length < 0 then .panicked
          else Selection.at rrb.candidates
            ((wrap32 (rrb.current + 1)).tmod rrb.candidates.length).toNat,
        { rrb with current := wrap32 (rrb.current + 1) })
  := by
  rw [nextBackend, hopen, if_neg Bool.false_ne_true]
  cases hcandidates : rrb.candidates with
  | nil =>
    rw [hcandidates] at htwo
    simp at htwo
  | cons b rest =>
    cases rest with
    | nil =>
      rw [hcandidates] at htwo
      simp at htwo
    | cons b' rest => rfl

/-- A call with one backend. -/
theorem nextBackend_of_one (hopen : rrb.closed = false) {b : Backend}
    (hone : rrb.candidates = [b]) :
  rrb.nextBackend = (.selected b, rrb)
  := by
  rw [nextBackend, hopen, if_neg Bool.false_ne_true, hone]

/-- The remainder of a counter that is not negative, or a multiple, is the index. -/
theorem tmod_eq_emod {x n : ℤ} (h : 0 ≤ x ∨ n ∣ x) :
  x.tmod n = x % n
  := by
  obtain hnonneg | hdvd := h
  · apply Int.tmod_eq_emod_of_nonneg hnonneg
  · rw [Int.tmod_eq_zero_of_dvd hdvd, Int.emod_eq_zero_of_dvd hdvd]

/-- A steady call with two backends or more selects the one at the next index. -/
theorem nextBackend_of_steady (hopen : rrb.closed = false) (hsteady : rrb.Steady)
    (htwo : 2 ≤ rrb.candidates.length) :
  rrb.nextBackend
    = (Selection.at rrb.candidates rrb.nextIndex,
        { rrb with current := wrap32 (rrb.current + 1) })
  := by
  obtain ⟨hcount, hcounter⟩ := hsteady htwo
  have hnonneg := Int.emod_nonneg (wrap32 (rrb.current + 1))
    (b := rrb.candidates.length) (by omega)
  rw [nextBackend_of_two hopen htwo, if_neg (by omega), tmod_eq_emod hcounter,
    if_neg (by omega), nextIndex]

/-- The counter moves on with every call with two backends or more. -/
theorem current_nextBackend (hopen : rrb.closed = false) (hsteady : rrb.Steady)
    (htwo : 2 ≤ rrb.candidates.length) :
  rrb.nextBackend.2.current = wrap32 (rrb.current + 1)
  := by
  rw [nextBackend_of_steady hopen hsteady htwo]

theorem closed_nextBackend (rrb : RoundRobinBalancer) :
  rrb.nextBackend.2.closed = rrb.closed
  := by
  rw [nextBackend]
  split
  · rfl
  · split
    · rfl
    · rfl
    · split
      · rfl
      · rfl

theorem at_nextIndex (h : rrb.candidates ≠ []) :
  ∃ b ∈ rrb.candidates, Selection.at rrb.candidates rrb.nextIndex = .selected b ∧
    rrb.candidates[rrb.nextIndex]? = some b
  := by
  have hget := List.getElem?_eq_getElem (nextIndex_lt h)
  refine ⟨_, List.mem_of_getElem? hget, ?_, hget⟩
  rw [Selection.at, hget]

/-- A call selects one of the available backends exactly when it is steady. -/
theorem selects_iff_steady (hopen : rrb.closed = false) :
  rrb.Selects ↔ rrb.Steady
  := by
  constructor
  · intro h htwo
    obtain ⟨b, -, hselected⟩ := h (List.ne_nil_of_length_pos (by omega))
    rw [nextBackend_of_two hopen htwo] at hselected
    split at hselected
    · cases hselected
    · rename_i hcount
      use by omega
      dsimp only at hselected
      split at hselected
      · cases hselected
      · rename_i hindex
        by_contra hcounter
        rw [not_or] at hcounter
        apply hindex
        -- a negative counter has a remainder that is zero or negative
        obtain ⟨hneg, hdvd⟩ := hcounter
        have hneg' := Int.tmod_nonneg (a := -wrap32 (rrb.current + 1))
          rrb.candidates.length (by omega)
        rw [Int.neg_tmod] at hneg'
        apply lt_of_le_of_ne
        · omega
        · intro hzero
          apply hdvd
          apply Int.dvd_of_tmod_eq_zero hzero
  · intro hsteady hne
    by_cases htwo : 2 ≤ rrb.candidates.length
    · obtain ⟨b, hmem, hselected, -⟩ := at_nextIndex hne
      use b, hmem
      rw [nextBackend_of_steady hopen hsteady htwo, hselected]
    · have hpos := List.length_pos_iff.mpr hne
      obtain ⟨b, hone⟩ := List.length_eq_one_iff.mp (show rrb.candidates.length = 1 by omega)
      use b
      rw [nextBackend_of_one hopen hone, hone]
      exact ⟨List.mem_singleton_self b, rfl⟩

/-- The upstream that is selected is the one at the next index. -/
theorem upstream_nextBackend (hopen : rrb.closed = false) (hsteady : rrb.Steady)
    (htwo : 2 ≤ rrb.candidates.length) :
  rrb.nextBackend.1.upstream = (rrb.candidates.map Backend.upstream)[rrb.nextIndex]?
  := by
  have hne : rrb.candidates ≠ [] := List.ne_nil_of_length_pos (by omega)
  obtain ⟨b, -, hselected, hget⟩ := at_nextIndex hne
  rw [nextBackend_of_steady hopen hsteady htwo, hselected, List.getElem?_map, hget]
  rfl

/-- The index after a steady call is the next one, also where the counter wraps around. -/
theorem nextIndex_succ {rrb' : RoundRobinBalancer} (hopen : rrb.closed = false)
    (hsteady : rrb.Steady) (hsteady' : rrb'.Steady) (htwo : 2 ≤ rrb.candidates.length)
    (hlength : rrb'.candidates.length = rrb.candidates.length)
    (hcurrent : rrb'.current = rrb.nextBackend.2.current) :
  rrb'.nextIndex = (rrb.nextIndex + 1) % rrb.candidates.length
  := by
  obtain ⟨-, hcounter'⟩ := hsteady' (by omega)
  rw [hcurrent, current_nextBackend hopen hsteady htwo, hlength] at hcounter'
  have hmod : wrap32 (wrap32 (rrb.current + 1) + 1) % (rrb.candidates.length : ℤ)
      = (wrap32 (rrb.current + 1) + 1) % rrb.candidates.length := by
    obtain ⟨hlow, hhigh⟩ := wrap32_bounds (rrb.current + 1)
    by_cases hmax : wrap32 (rrb.current + 1) = maxInt32
    · -- the counter becomes negative, so its value is a multiple, as is the one it would have
      rw [hmax, wrap32_maxInt32_add_one] at hcounter' ⊢
      obtain hfalse | hdvd := hcounter'
      · omega
      · have hdvd' : (rrb.candidates.length : ℤ) ∣ maxInt32 + 1 := by
          apply (Int.dvd_neg).mp
          apply hdvd
        rw [Int.emod_eq_zero_of_dvd hdvd, Int.emod_eq_zero_of_dvd hdvd']
    · rw [wrap32_of_bounds (by omega) (by omega)]
  have hnonneg := Int.emod_nonneg (wrap32 (rrb.current + 1))
    (b := rrb.candidates.length) (by omega)
  rw [nextIndex, nextIndex, hcurrent, current_nextBackend hopen hsteady htwo, hlength, hmod]
  apply Int.ofNat.inj
  change ((_ : ℕ) : ℤ) = ((_ : ℕ) : ℤ)
  rw [Int.toNat_of_nonneg (Int.emod_nonneg _ (by omega)), Int.natCast_mod, Int.natCast_add,
    Int.toNat_of_nonneg hnonneg, Nat.cast_one, Int.emod_add_emod]

end RoundRobinBalancer

/-! ### Runs -/

namespace RoundRobin

/-- The balancer, and the balancer as each of the calls of `NextBackend` found it. -/
structure State where
  rrb : RoundRobinBalancer
  calls : List RoundRobinBalancer

/-- A new balancer. -/
def init (backends : List Backend) : State := ⟨.new backends, []⟩

inductive Action where
  | nextBackend
  | updateBackendState (backendURL : GoString) (newState : BackendState)

def machine : Machine State Action where
  step s a :=
    match a with
    | .nextBackend => some ⟨s.rrb.nextBackend.2, s.calls ++ [s.rrb]⟩
    | .updateBackendState backendURL newState =>
      some { s with rrb := s.rrb.updateBackendState backendURL newState }

/-- Every call with an available backend selects one of those, and as many calls in a row
as there are available backends, with the same ones available at each of them, select each of
them exactly once. -/
structure Fair (s : State) : Prop where
  selects : ∀ rrb ∈ s.calls, rrb.Selects
  rounds : ∀ (window : List RoundRobinBalancer) (upstreams : List (GoString × ℤ)),
    window <:+: s.calls → (∀ rrb ∈ window, rrb.candidates.map Backend.upstream = upstreams) →
    window.length = upstreams.length →
    (window.map (fun rrb => rrb.nextBackend.1.upstream)).Perm (upstreams.map some)

/-- A call of `NextBackend` is steady. -/
def StaysSteady (s : State) : Action → Prop
  | .nextBackend => s.rrb.Steady
  | .updateBackendState _ _ => True

/-- The counter of a call is the one the call before it leaves. -/
def Follows (rrb rrb' : RoundRobinBalancer) : Prop :=
  rrb'.current = rrb.nextBackend.2.current

/-- The balancer is open, and each call goes on from the one before it. -/
structure Recorded (s : State) : Prop where
  isOpen : ∀ rrb ∈ s.calls ++ [s.rrb], rrb.closed = false
  follows : (s.calls ++ [s.rrb]).IsChain Follows

theorem recorded_init (backends : List Backend) :
  Recorded (init backends)
  := by
  constructor
  · intro rrb hrrb
    obtain rfl := List.mem_singleton.mp hrrb
    rfl
  · apply List.isChain_singleton

theorem recorded_step (s : State) (a : Action) (t : State) (hs : Recorded s)
    (ht : machine.step s a = some t) :
  Recorded t
  := by
  cases a with
  | nextBackend =>
    obtain rfl := Option.some.inj ht
    constructor
    · intro rrb hrrb
      obtain hcalls | hlast := List.mem_append.mp hrrb
      · apply hs.isOpen rrb hcalls
      · obtain rfl := List.mem_singleton.mp hlast
        rw [RoundRobinBalancer.closed_nextBackend]
        apply hs.isOpen
        simp
    · rw [List.append_assoc]
      apply List.isChain_split.mpr
      use hs.follows
      apply List.isChain_pair.mpr
      rfl
  | updateBackendState backendURL newState =>
    obtain rfl := Option.some.inj ht
    constructor
    · intro rrb hrrb
      obtain hcalls | hlast := List.mem_append.mp hrrb
      · apply hs.isOpen rrb (List.mem_append_left _ hcalls)
      · obtain rfl := List.mem_singleton.mp hlast
        apply hs.isOpen s.rrb (List.mem_append_right _ (List.mem_singleton_self _))
    · -- the counter stays as it is
      have hfollows := hs.follows
      rw [List.isChain_append] at hfollows ⊢
      obtain ⟨hcalls, -, hlast⟩ := hfollows
      use hcalls, List.isChain_singleton _
      intro rrb hrrb rrb' hrrb'
      obtain rfl := Option.some.inj hrrb'
      apply hlast rrb hrrb s.rrb rfl

section

variable {window : List RoundRobinBalancer} {upstreams : List (GoString × ℤ)}

/-- Steady calls in a row with the same two upstreams or more come to the upstreams in turn. -/
theorem rounds_of_two (hopen : ∀ rrb ∈ window, rrb.closed = false)
    (hsteady : ∀ rrb ∈ window, rrb.Steady) (hfollows : window.IsChain Follows)
    (hupstreams : ∀ rrb ∈ window, rrb.candidates.map Backend.upstream = upstreams)
    (hlength : window.length = upstreams.length) (htwo : 2 ≤ upstreams.length) :
  (window.map (fun rrb => rrb.nextBackend.1.upstream)).Perm (upstreams.map some)
  := by
  have hcandidates : ∀ rrb ∈ window, rrb.candidates.length = upstreams.length := by
    intro rrb hrrb
    rw [← hupstreams rrb hrrb, List.length_map]
  have hmap : window.map (fun rrb => rrb.nextBackend.1.upstream)
      = (window.map (fun rrb => rrb.nextIndex)).map (fun i => upstreams[i]?) := by
    rw [List.map_map]
    apply List.map_congr_left
    intro rrb hrrb
    rw [RoundRobinBalancer.upstream_nextBackend (hopen rrb hrrb) (hsteady rrb hrrb)
      (by rw [hcandidates rrb hrrb]; apply htwo), hupstreams rrb hrrb]
    rfl
  rw [hmap]
  apply Rotation.map_perm
  · intro i hi
    obtain ⟨rrb, hrrb, rfl⟩ := List.mem_map.mp hi
    rw [← hcandidates rrb hrrb]
    apply RoundRobinBalancer.nextIndex_lt
    apply List.ne_nil_of_length_pos
    rw [hcandidates rrb hrrb]
    omega
  · apply (List.isChain_map _).mpr
    apply hfollows.imp_of_mem_imp
    intro rrb rrb' hrrb hrrb' hcurrent
    rw [← hcandidates rrb hrrb]
    apply RoundRobinBalancer.nextIndex_succ (hopen rrb hrrb) (hsteady rrb hrrb)
      (hsteady rrb' hrrb')
    · rw [hcandidates rrb hrrb]
      apply htwo
    · rw [hcandidates rrb hrrb, hcandidates rrb' hrrb']
    · apply hcurrent
  · rw [List.length_map, hlength]

/-- Steady calls in a row with the same upstreams select each of them once. -/
theorem rounds_of_steady (hopen : ∀ rrb ∈ window, rrb.closed = false)
    (hsteady : ∀ rrb ∈ window, rrb.Steady) (hfollows : window.IsChain Follows)
    (hupstreams : ∀ rrb ∈ window, rrb.candidates.map Backend.upstream = upstreams)
    (hlength : window.length = upstreams.length) :
  (window.map (fun rrb => rrb.nextBackend.1.upstream)).Perm (upstreams.map some)
  := by
  by_cases htwo : 2 ≤ upstreams.length
  · apply rounds_of_two hopen hsteady hfollows hupstreams hlength htwo
  · -- no call, or a single one that selects the only backend there is
    cases window with
    | nil =>
      obtain rfl : upstreams = [] := List.length_eq_zero_iff.mp hlength.symm
      apply List.Perm.refl
    | cons rrb window =>
      rw [List.length_cons] at hlength
      obtain rfl : window = [] := List.length_eq_zero_iff.mp (by omega)
      have hone : rrb.candidates.length = 1 := by
        rw [← List.length_map Backend.upstream, hupstreams rrb List.mem_cons_self, ← hlength]
        rfl
      obtain ⟨b, hone⟩ := List.length_eq_one_iff.mp hone
      rw [← hupstreams rrb List.mem_cons_self, List.map_singleton,
        RoundRobinBalancer.nextBackend_of_one (hopen rrb List.mem_cons_self) hone, hone]
      apply List.Perm.refl

end

/-- A state is fair exactly when all its calls were steady. -/
theorem fair_iff_steady {s : State} (hs : Recorded s) :
  Fair s ↔ ∀ rrb ∈ s.calls, rrb.Steady
  := by
  have hopen : ∀ rrb ∈ s.calls, rrb.closed = false := by
    intro rrb hrrb
    apply hs.isOpen rrb (List.mem_append_left _ hrrb)
  constructor
  · intro h rrb hrrb
    apply (RoundRobinBalancer.selects_iff_steady (hopen rrb hrrb)).mp
    apply h.selects rrb hrrb
  · intro h
    constructor
    · intro rrb hrrb
      apply (RoundRobinBalancer.selects_iff_steady (hopen rrb hrrb)).mpr
      apply h rrb hrrb
    · intro window upstreams hwindow
      apply rounds_of_steady
      · intro rrb hrrb
        apply hopen rrb (hwindow.subset hrrb)
      · intro rrb hrrb
        apply h rrb (hwindow.subset hrrb)
      · apply hs.follows.infix
        apply hwindow.trans
        apply (List.prefix_append _ _).isInfix

theorem fair_init (backends : List Backend) :
  Fair (init backends)
  := by
  apply (fair_iff_steady (recorded_init backends)).mpr
  intro rrb hrrb
  cases hrrb

/-- A step keeps a state fair exactly when it is steady. -/
theorem fair_step (s : State) (a : Action) (t : State) (hs : Recorded s) (hfair : Fair s)
    (ht : machine.step s a = some t) :
  Fair t ↔ StaysSteady s a
  := by
  have hsteady := (fair_iff_steady hs).mp hfair
  rw [fair_iff_steady (recorded_step s a t hs ht)]
  cases a with
  | nextBackend =>
    obtain rfl := Option.some.inj ht
    constructor
    · intro h
      apply h s.rrb (List.mem_append_right _ (List.mem_singleton_self _))
    · intro h rrb hrrb
      obtain hcalls | hlast := List.mem_append.mp hrrb
      · apply hsteady rrb hcalls
      · obtain rfl := List.mem_singleton.mp hlast
        apply h
  | updateBackendState backendURL newState =>
    obtain rfl := Option.some.inj ht
    constructor
    · intro _
      trivial
    · intro _
      apply hsteady

/-- A run of a new balancer is fair throughout exactly when all its calls are steady. -/
theorem fair_iff_staysSteady (backends : List Backend) (actions : List Action) :
  machine.Always Fair (init backends) actions ↔
    machine.Meets StaysSteady (init backends) actions
  := Machine.always_iff_meets recorded_step fair_step (recorded_init backends)
    (fair_init backends)

/-! ### The counter at its largest value -/

/-- With a number of backends that does not divide `2 ^ 31`, the call after the counter has
reached its largest value panics. -/
theorem panicked_nextBackend {rrb : RoundRobinBalancer} (hopen : rrb.closed = false)
    (hlength : rrb.candidates.length = 3) (hcurrent : rrb.current = maxInt32) :
  rrb.nextBackend.1 = .panicked
  := by
  rw [RoundRobinBalancer.nextBackend_of_two hopen (by omega), hcurrent,
    wrap32_maxInt32_add_one, hlength]
  rfl

/-- Calls from a counter on, up to the one after the largest value. -/
theorem not_always_fair {s : State} {calls : ℕ} (hopen : s.rrb.closed = false)
    (hlength : s.rrb.candidates.length = 3) (hlow : -1 ≤ s.rrb.current)
    (hcurrent : s.rrb.current + calls = maxInt32) :
  ¬ machine.Always Fair s (List.replicate (calls + 1) .nextBackend)
  := by
  induction calls generalizing s with
  | zero =>
    intro h
    have hfair := (h.2 _ rfl).head
    obtain ⟨b, -, hselected⟩ := hfair.selects s.rrb (by simp)
      (List.ne_nil_of_length_pos (by omega))
    rw [panicked_nextBackend hopen hlength (by simpa using hcurrent)] at hselected
    cases hselected
  | succ calls ih =>
    have hnext : wrap32 (s.rrb.current + 1) = s.rrb.current + 1 := by
      apply wrap32_of_bounds
      · omega
      · omega
    have hsteady : s.rrb.Steady := by
      intro _
      rw [hlength, hnext]
      exact ⟨by decide, Or.inl (by omega)⟩
    have hafter := RoundRobinBalancer.nextBackend_of_steady hopen hsteady (by omega)
    intro h
    apply ih _ _ _ _ (h.2 _ rfl)
    · rw [hafter]
      apply hopen
    · rw [hafter]
      apply hlength
    · rw [hafter, hnext]
      dsimp only
      omega
    · rw [hafter, hnext]
      dsimp only
      omega

/-- Three backends. -/
def three : List Backend :=
  [⟨str "http://a", 1, .healthy⟩, ⟨str "http://b", 1, .healthy⟩, ⟨str "http://c", 1, .healthy⟩]

/-- Three healthy backends and `2 ^ 31 + 1` calls: the last of them panics. -/
theorem unfair_after_counter_wraps :
  ¬ machine.Always Fair (init three) (List.replicate (2 ^ 31 + 1) .nextBackend)
  := by
  apply not_always_fair
  · rfl
  · rfl
  · decide
  · decide

end RoundRobin

end Proxy

end VmProxyAuth
