import VmProxyAuth.Lib.SmoothRobin
import VmProxyAuth.Proxy.Weighted

/-!
# Fairness of the weighted round-robin balancer

With all backends healthy and weights small enough for `int32`, the calls of `NextBackend` are
the turns of a smooth weighted round robin: in every round of as many calls as the total weight
each backend is selected as often as its weight says.
-/

namespace VmProxyAuth

namespace Proxy

namespace WeightedRoundRobinBalancer

open SmoothRobin

/-- The index of the backend a call selects. -/
def nextIndex (wrr : WeightedRoundRobinBalancer) : Option ℕ :=
  match candidateIndices wrr.backends with
  | [] => none
  | [idx] => some idx
  | healthyIndices => (wrr.selectByWeight healthyIndices).1

theorem nextIndex_of_two {wrr : WeightedRoundRobinBalancer}
    (htwo : 2 ≤ (candidateIndices wrr.backends).length) :
  wrr.nextIndex = (wrr.selectByWeight (candidateIndices wrr.backends)).1
  := by
  rw [nextIndex]
  cases hcandidates : candidateIndices wrr.backends with
  | nil =>
    rw [hcandidates] at htwo
    simp at htwo
  | cons idx rest =>
    cases rest with
    | nil =>
      rw [hcandidates] at htwo
      simp at htwo
    | cons idx' rest => rfl

/-- A balancer after calls of `NextBackend`. -/
def afterCalls (backends : List Backend) : ℕ → WeightedRoundRobinBalancer
  | 0 => new backends
  | t + 1 => (afterCalls backends t).nextBackend.2

theorem indicesWhere_of_forall {p : Backend → Bool} {backends : List Backend}
    (h : ∀ b ∈ backends, p b) :
  indicesWhere p backends = List.range backends.length
  := by
  apply List.filter_eq_self.mpr
  intro i hi
  rw [List.getElem?_eq_getElem (List.mem_range.mp hi)]
  apply h _ (List.getElem_mem _)

theorem candidateIndices_of_healthy {backends : List Backend}
    (h : ∀ b ∈ backends, b.state = .healthy) :
  candidateIndices backends = List.range backends.length
  := by
  have hall := indicesWhere_of_forall (p := fun b => b.state.isAvailable)
    (fun b hb => decide_eq_true (h b hb))
  rw [candidateIndices, hall]
  split
  · rename_i hnone
    have hzero : backends.length = 0 := by simpa using hnone
    rw [indicesWhere, hzero]
    rfl
  · rfl

section

variable (backends : List Backend)

/-- The weights of the backends. -/
def shares (i : Fin backends.length) : ℤ := backends[i].weight

theorem total_shares :
  total (shares backends) = (backends.map Backend.weight).sum
  := Fin.sum_univ_fun_getElem backends Backend.weight

/-- The current weights. -/
def currents (wrr : WeightedRoundRobinBalancer) (i : Fin backends.length) : ℤ := wrr.current i

/-- All backends are healthy, there are two or more of them, their weights are positive, and
the sum of the weights times the number of backends is an `int32`. -/
structure Steady : Prop where
  two_le : 2 ≤ backends.length
  healthy : ∀ b ∈ backends, b.state = .healthy
  one_le_weight : ∀ b ∈ backends, 1 ≤ b.weight
  total_lt : backends.length * (backends.map Backend.weight).sum < 2 ^ 31

/-- A balancer in the course of a round. -/
structure Turning (wrr : WeightedRoundRobinBalancer) : Prop where
  wellFormed : wrr.WellFormed
  backends_eq : wrr.backends = backends
  weights_eq : wrr.weights = (new backends).weights
  balanced : Balanced (shares backends) (currents backends wrr)

end

variable {backends : List Backend} {wrr : WeightedRoundRobinBalancer}

theorem Steady.shares_pos (h : Steady backends) (i : Fin backends.length) :
  0 < shares backends i
  := h.one_le_weight _ (List.getElem_mem _)

theorem Steady.nonempty (h : Steady backends) :
  Nonempty (Fin backends.length)
  := ⟨⟨0, lt_of_lt_of_le two_pos h.two_le⟩⟩

theorem Steady.total_bounds (h : Steady backends) :
  0 < total (shares backends) ∧ total (shares backends) ≤ maxInt32
  := by
  have hnonempty := h.nonempty
  have hpos := total_pos h.shares_pos
  use hpos
  rw [total_shares] at *
  have hlt := h.total_lt
  have htwo := h.two_le
  have hmax : maxInt32 = 2 ^ 31 - 1 := rfl
  nlinarith

theorem Steady.weight_eq (h : Steady backends) (hwrr : Turning backends wrr)
    (i : Fin backends.length) :
  wrr.weight i = shares backends i
  := by
  have hpos := h.one_le_weight _ (List.getElem_mem i.isLt)
  have hnew := weight_new backends i.isLt
  rw [weight, hwrr.weights_eq, ← weight, hnew, if_neg (by omega)]
  rfl

/-- No weight is raised beyond the range of an `int32`. -/
theorem Steady.raised_eq (h : Steady backends) (hwrr : Turning backends wrr)
    (i : Fin backends.length) :
  wrr.raised i = currents backends wrr i + shares backends i
  := by
  have hpos := h.shares_pos i
  have hle := hwrr.balanced.raised_le h.shares_pos i
  have hlt := h.total_lt
  rw [Fintype.card_fin, total_shares] at hle
  obtain ⟨hlow, -⟩ := hwrr.wellFormed.current_inRange i
  have hmax : maxInt32 = 2 ^ 31 - 1 := rfl
  rw [raised, h.weight_eq hwrr, addWeight, ← currents] at *
  rw [if_neg (by omega), wrap32_of_bounds (by omega) (by omega)]

theorem Steady.valid (h : Steady backends) (hwrr : Turning backends wrr)
    (i : Fin backends.length) :
  wrr.Valid i
  := by
  have hle := Finset.single_le_sum (f := shares backends) (fun j _ => (h.shares_pos j).le)
    (Finset.mem_univ i)
  rw [Valid, h.weight_eq hwrr]
  apply le_trans hle h.total_bounds.2

/-- The total of the candidates is the sum of the weights. -/
theorem Steady.totalHealthyWeight_eq (h : Steady backends) (hwrr : Turning backends wrr) :
  wrr.totalHealthyWeight (List.range backends.length) = total (shares backends)
  := by
  have hweights : wrr.validWeights (List.range backends.length)
      = backends.map Backend.weight := by
    have hall : (List.range backends.length).filter (fun idx => decide (wrr.Valid idx))
        = List.range backends.length := by
      apply List.filter_eq_self.mpr
      intro i hi
      apply decide_eq_true (h.valid hwrr ⟨i, List.mem_range.mp hi⟩)
    rw [validWeights, hall]
    apply List.ext_getElem
    · simp
    · intro i hi hi'
      rw [List.length_map] at hi'
      rw [List.getElem_map, List.getElem_range, List.getElem_map]
      apply h.weight_eq hwrr ⟨i, hi'⟩
  have hpos : ∀ weight ∈ backends.map Backend.weight, 1 ≤ weight := by
    intro weight hweight
    obtain ⟨b, hb, rfl⟩ := List.mem_map.mp hweight
    apply h.one_le_weight b hb
  have hle : 0 + (backends.map Backend.weight).sum ≤ maxInt32 := by
    rw [zero_add, ← total_shares]
    apply h.total_bounds.2
  rw [WeightedRoundRobinBalancer.totalHealthyWeight_eq, hweights,
    (fits_of_sum_le (le_refl 0) hpos hle).2, total_shares, zero_add]

/-- A call is a turn: it picks a backend with the largest raised weight and takes the total
from it. -/
theorem Steady.turn (h : Steady backends) (hwrr : Turning backends wrr) :
  ∃ best : Fin backends.length, wrr.nextIndex = some best.val ∧
    wrr.nextBackend.1 = Selection.at backends best ∧
    IsBest (shares backends) (currents backends wrr) best ∧
    currents backends wrr.nextBackend.2 = next (shares backends) (currents backends wrr) best
  := by
  have hcandidates : candidateIndices wrr.backends = List.range backends.length := by
    rw [hwrr.backends_eq]
    apply candidateIndices_of_healthy h.healthy
  have htwo : 2 ≤ (candidateIndices wrr.backends).length := by
    rw [hcandidates, List.length_range]
    apply h.two_le
  have hspec := selectByWeight_spec (nodup_candidateIndices wrr.backends)
    (fun _ => hwrr.wellFormed.lt_of_mem)
  rw [nextIndex_of_two htwo, nextBackend_of_two hwrr.wellFormed.isOpen htwo]
  rw [hcandidates] at hspec ⊢
  have hmem : ∀ i : Fin backends.length, i.val ∈ List.range backends.length :=
    fun i => List.mem_range.mpr i.isLt
  obtain ⟨-, hall, -⟩ | ⟨best, hbest, hsome, -, hnonneg, hall, hcurrent⟩ := hspec
  · -- the raised weights sum up to the total, so they are not all negative
    have hsum := hwrr.balanced.sum_raised
    have hpos := h.total_bounds.1
    have hneg : ∑ i, (currents backends wrr i + shares backends i) ≤ 0 := by
      apply Finset.sum_nonpos
      intro i _
      have hlow := hall i (hmem i) (h.valid hwrr i)
      rw [h.raised_eq hwrr] at hlow
      omega
    omega
  · have hlt := List.mem_range.mp hbest
    refine ⟨⟨best, hlt⟩, hsome, ?_, ?_, ?_⟩
    · rw [hsome, hwrr.backends_eq]
    · intro j
      have hle := hall j (hmem j) (h.valid hwrr j)
      rw [h.raised_eq hwrr, h.raised_eq hwrr ⟨best, hlt⟩] at hle
      apply hle
    · funext j
      obtain ⟨hpos, hle⟩ := h.total_bounds
      have hbounds := (wrap32_bounds (wrr.current best + guarded (wrr.current best)
        (wrr.weight best))).2
      rw [← addWeight_eq, ← raised] at hbounds
      rw [maxInt32] at hle
      rw [currents, hcurrent, h.totalHealthyWeight_eq hwrr, next, ← h.raised_eq hwrr]
      by_cases hj : j = ⟨best, hlt⟩
      · rw [if_pos (congrArg Fin.val hj), if_pos hj, hj,
          wrap32_of_bounds (by omega) (by omega)]
      · rw [if_neg (fun heq => hj (Fin.ext heq)), if_neg hj, if_pos ⟨hmem j, h.valid hwrr j⟩,
          sub_zero]

theorem Steady.turning_new (h : Steady backends) :
  Turning backends (new backends)
  := by
  refine ⟨wellFormed_new backends, rfl, rfl, ?_⟩
  have hzero : currents backends (new backends) = 0 := by
    funext i
    apply current_new
  have hnonempty := h.nonempty
  rw [hzero]
  apply balanced_zero h.shares_pos

theorem Steady.turning_nextBackend (h : Steady backends) (hwrr : Turning backends wrr) :
  Turning backends wrr.nextBackend.2
  := by
  obtain ⟨best, -, -, hbest, hnext⟩ := h.turn hwrr
  have hnonempty := h.nonempty
  obtain ⟨hweights, -⟩ := Weighted.weights_step (a := .nextBackend) hwrr.wellFormed rfl
  refine ⟨hwrr.wellFormed.nextBackend, ?_, ?_, ?_⟩
  · rw [backends_nextBackend, hwrr.backends_eq]
  · rw [hweights, hwrr.weights_eq]
  · rw [hnext]
    apply hwrr.balanced.next h.shares_pos hbest

theorem Steady.turning (h : Steady backends) (t : ℕ) :
  Turning backends (afterCalls backends t)
  := by
  induction t with
  | zero => apply h.turning_new
  | succ t ih => apply h.turning_nextBackend ih

/-- The calls from a new balancer are the turns of a smooth weighted round robin. -/
theorem Steady.isRun (h : Steady backends) :
  ∃ pick : ℕ → Fin backends.length,
    (∀ t, (afterCalls backends t).nextIndex = some (pick t).val ∧
      (afterCalls backends t).nextBackend.1 = Selection.at backends (pick t)) ∧
    IsRun (shares backends) (fun t => currents backends (afterCalls backends t)) pick
  := by
  choose pick hindex hselected hbest hnext using fun t => h.turn (h.turning t)
  refine ⟨pick, fun t => ⟨hindex t, hselected t⟩, ⟨?_, hbest, hnext⟩⟩
  funext i
  apply current_new

/-- With two backends or more, all healthy, with positive weights whose sum times the number of
backends is an `int32`, every round of as many calls as the weights sum up to selects each
backend as often as its weight says, and ends with all current weights zero. -/
theorem selected_by_weight (backends : List Backend) (htwo : 2 ≤ backends.length)
    (hweights : ∀ b ∈ backends, 1 ≤ b.weight) (hhealthy : ∀ b ∈ backends, b.state = .healthy)
    (hbound : backends.length * (backends.map Backend.weight).sum < 2 ^ 31) (round : ℕ) :
  let calls := (backends.map Backend.weight).sum.toNat
  (∀ t, ∃ i < backends.length, (afterCalls backends t).nextIndex = some i ∧
      (afterCalls backends t).nextBackend.1 = Selection.at backends i) ∧
    (∀ (i : ℕ) (hi : i < backends.length),
      (((Finset.range calls).filter
        (fun t => (afterCalls backends (round * calls + t)).nextIndex = some i)).card : ℤ)
        = backends[i].weight) ∧
    (afterCalls backends ((round + 1) * calls)).currentWeights = backends.map (fun _ => 0)
  := by
  have h : Steady backends := ⟨htwo, hhealthy, hweights, hbound⟩
  have hnonempty := h.nonempty
  obtain ⟨pick, hpick, hrun⟩ := h.isRun
  have hcurrent := hrun.current_round h.shares_pos
  dsimp only
  rw [← total_shares]
  refine ⟨?_, ?_, ?_⟩
  · intro t
    exact ⟨pick t, (pick t).isLt, hpick t⟩
  · intro i hi
    have hround := hrun.picks_round h.shares_pos (hcurrent round) ⟨i, hi⟩
    change _ = backends[i].weight at hround
    rw [← hround, picks]
    congr 2
    apply Finset.filter_congr
    intro t _
    rw [(hpick _).1, Option.some.injEq, Fin.ext_iff]
  · have hlength := (h.turning ((round + 1) * (total (shares backends)).toNat)).wellFormed
      |>.current_length
    rw [(h.turning _).backends_eq] at hlength
    apply List.ext_getElem
    · rw [hlength, List.length_map]
    · intro i hi hi'
      rw [List.length_map] at hi'
      have hzero := congrFun (hcurrent (round + 1)) ⟨i, hi'⟩
      simp only [currents, current, List.getD_eq_getElem _ _ hi] at hzero
      rw [List.getElem_map]
      apply hzero

/-- Backends of weights five, one and one. -/
def fiveOneOne : List Backend :=
  [⟨str "http://a", 5, .healthy⟩, ⟨str "http://b", 1, .healthy⟩, ⟨str "http://c", 1, .healthy⟩]

/-- The second round of seven calls selects the first backend five times and the others once, and
brings the current weights back to zero. -/
theorem selected_five_one_one :
  (∀ t, ∃ i < 3, (afterCalls fiveOneOne t).nextIndex = some i ∧
      (afterCalls fiveOneOne t).nextBackend.1 = Selection.at fiveOneOne i) ∧
    (∀ (i : ℕ) (hi : i < 3),
      (((Finset.range 7).filter
        (fun t => (afterCalls fiveOneOne (1 * 7 + t)).nextIndex = some i)).card : ℤ)
        = [5, 1, 1].get ⟨i, hi⟩) ∧
    (afterCalls fiveOneOne 14).currentWeights = [0, 0, 0]
  := by
  obtain ⟨hreturns, hpicks, hweights⟩ :=
    selected_by_weight fiveOneOne (by decide) (by decide) (by decide) (by decide) 1
  use hreturns
  constructor
  · intro i hi
    apply (hpicks i hi).trans
    interval_cases i <;> rfl
  · apply hweights

end WeightedRoundRobinBalancer

end Proxy

end VmProxyAuth
