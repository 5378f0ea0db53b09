import VmProxyAuth.Lib.Machine
import VmProxyAuth.Proxy.Health

/-!
# Runs of the weighted round-robin balancer

A run of calls of `NextBackend` and of changes of the states of the backends.  What the search
of `selectByWeight` finds is told by the current weights raised by the weights: the first of
the largest ones, if it is not negative.  From this follows when a call selects a backend, and
when the sums it makes are the sums of integers.
-/

namespace VmProxyAuth

namespace Proxy

/-! ### Candidates -/

theorem nodup_indicesWhere (p : Backend → Bool) (backends : List Backend) :
  (indicesWhere p backends).Nodup
  := List.nodup_range.filter _

theorem nodup_candidateIndices (backends : List Backend) :
  (candidateIndices backends).Nodup
  := by
  rw [candidateIndices]
  split
  · apply nodup_indicesWhere
  · apply nodup_indicesWhere

theorem lt_of_mem_candidateIndices {backends : List Backend} {i : ℕ}
    (h : i ∈ candidateIndices backends) :
  i < backends.length
  := by
  rw [candidateIndices] at h
  split at h
  · apply lt_of_mem_indicesWhere h
  · apply lt_of_mem_indicesWhere h

theorem mem_indicesWhere {p : Backend → Bool} {backends : List Backend} {i : ℕ} :
  i ∈ indicesWhere p backends ↔ ∃ b, backends[i]? = some b ∧ p b
  := by
  rw [indicesWhere, List.mem_filter, List.mem_range, Option.any_eq_true]
  constructor
  · rintro ⟨-, b, hb, hp⟩
    exact ⟨b, hb, hp⟩
  · rintro ⟨b, hb, hp⟩
    obtain ⟨hlt, -⟩ := List.getElem?_eq_some_iff.mp hb
    exact ⟨hlt, b, hb, hp⟩

/-- Some backend is healthy. -/
def AnyHealthy (backends : List Backend) : Prop := ∃ b ∈ backends, b.state = .healthy

/-- If a backend is healthy, the candidates are the healthy ones, and there is one. -/
theorem candidateIndices_of_anyHealthy {backends : List Backend} (h : AnyHealthy backends) :
  candidateIndices backends ≠ [] ∧
    ∀ i ∈ candidateIndices backends, ∃ b ∈ backends, b.state = .healthy ∧
      Selection.at backends i = .selected b
  := by
  obtain ⟨b, hb, hstate⟩ := h
  obtain ⟨i, hi⟩ := List.getElem?_of_mem hb
  have hmem : i ∈ indicesWhere (fun b => b.state.isAvailable) backends :=
    mem_indicesWhere.mpr ⟨b, hi, by rw [hstate]; rfl⟩
  have hne : indicesWhere (fun b => b.state.isAvailable) backends ≠ [] :=
    List.ne_nil_of_mem hmem
  rw [candidateIndices, if_neg hne]
  use hne
  intro j hj
  obtain ⟨b', hb', havailable⟩ := mem_indicesWhere.mp hj
  refine ⟨b', List.mem_of_getElem? hb', of_decide_eq_true havailable, ?_⟩
  rw [Selection.at, hb']

namespace WeightedRoundRobinBalancer

/-! ### Sums of weights -/

/-- The value is an `int32`. -/
def InRange (x : ℤ) : Prop := -2147483648 ≤ x ∧ x ≤ maxInt32

/-- What is added to a sum for a weight. -/
def guarded (sum weight : ℤ) : ℤ := if maxInt32 - weight < sum then defaultBackendWeight else weight

theorem addWeight_eq (sum weight : ℤ) :
  addWeight sum weight = wrap32 (sum + guarded sum weight)
  := rfl

/-- The results of the additions by which weights are summed up, as integers. -/
def additions : ℤ → List ℤ → List ℤ
  | _, [] => []
  | sum, weight :: weights =>
    (sum + guarded sum weight) :: additions (addWeight sum weight) weights

/-- Every weight in turn finds room: it takes its own amount if that is left, and one
otherwise. -/
def Fits : ℤ → List ℤ → Prop
  | _, [] => True
  | room, weight :: weights =>
    0 < room ∧ Fits (if weight ≤ room then room - weight else room - 1) weights

instance decidableFits : ∀ (room : ℤ) (weights : List ℤ), Decidable (Fits room weights)
  | _, [] => isTrue trivial
  | room, weight :: weights =>
    have : Decidable (Fits (if weight ≤ room then room - weight else room - 1) weights) :=
      decidableFits _ weights
    inferInstanceAs (Decidable (_ ∧ _))

theorem wrap32_of_inRange {x : ℤ} (h : InRange x) :
  wrap32 x = x
  := wrap32_of_bounds h.1 h.2

/-- A weight is added to a sum without overflow exactly when the sum is below the largest
value. -/
theorem inRange_guarded_iff {sum weight : ℤ} (hsum : InRange sum) (hlow : 1 ≤ weight) :
  InRange (sum + guarded sum weight) ↔ sum ≠ maxInt32
  := by
  obtain ⟨hsum, hhigh⟩ := hsum
  have hmax : maxInt32 = 2147483647 := rfl
  rw [InRange, guarded, defaultBackendWeight]
  by_cases hguard : maxInt32 - weight < sum
  · rw [if_pos hguard]
    omega
  · rw [if_neg hguard]
    omega

/-- The sum after a weight that finds room. -/
theorem room_addWeight {sum weight : ℤ} (hsum : 0 ≤ sum) (hroom : sum < maxInt32)
    (hlow : 1 ≤ weight) :
  0 ≤ addWeight sum weight ∧ addWeight sum weight ≤ maxInt32 ∧
    maxInt32 - addWeight sum weight
      = if weight ≤ maxInt32 - sum then maxInt32 - sum - weight else maxInt32 - sum - 1
  := by
  have hrange : InRange sum := ⟨by omega, hroom.le⟩
  have hadded := (inRange_guarded_iff hrange hlow).mpr hroom.ne
  rw [addWeight_eq, wrap32_of_inRange hadded]
  simp only [guarded, defaultBackendWeight]
  split
  · rw [if_neg (by omega)]
    omega
  · rw [if_pos (by omega)]
    omega

/-- The sums of weights are those of integers exactly when the weights fit, and then the sum
is not negative. -/
theorem additions_inRange_iff {sum : ℤ} (hsum : 0 ≤ sum) (hhigh : sum ≤ maxInt32)
    {weights : List ℤ} (hweights : ∀ weight ∈ weights, 1 ≤ weight) :
  ((∀ x ∈ additions sum weights, InRange x) ↔ Fits (maxInt32 - sum) weights) ∧
    (Fits (maxInt32 - sum) weights →
      0 ≤ weights.foldl addWeight sum ∧ weights.foldl addWeight sum ≤ maxInt32)
  := by
  induction weights generalizing sum with
  | nil => exact ⟨by simp [additions, Fits], fun _ => ⟨hsum, hhigh⟩⟩
  | cons weight weights ih =>
    have hlow := hweights weight List.mem_cons_self
    have hfirst := inRange_guarded_iff (⟨by omega, hhigh⟩ : InRange sum) hlow
    rw [additions, List.forall_mem_cons, Fits, hfirst, List.foldl_cons]
    by_cases hfull : sum = maxInt32
    · -- the sum is at its largest value, so there is no room left
      constructor
      · apply iff_of_false
        · rintro ⟨hne, -⟩
          apply hne hfull
        · rintro ⟨hroom, -⟩
          omega
      · rintro ⟨hroom, -⟩
        omega
    · obtain ⟨hlow', hhigh', hroom⟩ := room_addWeight hsum (by omega) hlow
      obtain ⟨hiff, hbounds⟩ := ih hlow' hhigh'
        (fun weight' hweight' => hweights weight' (List.mem_cons_of_mem _ hweight'))
      rw [hroom] at hiff hbounds
      constructor
      · rw [hiff]
        apply and_congr_left'
        apply iff_of_true hfull
        omega
      · rintro ⟨-, hrest⟩
        apply hbounds hrest

/-- Weights whose sum is an `int32` fit, and are summed up as integers. -/
theorem fits_of_sum_le {sum : ℤ} (hsum : 0 ≤ sum) {weights : List ℤ}
    (hweights : ∀ weight ∈ weights, 1 ≤ weight) (htotal : sum + weights.sum ≤ maxInt32) :
  Fits (maxInt32 - sum) weights ∧ weights.foldl addWeight sum = sum + weights.sum
  := by
  induction weights generalizing sum with
  | nil => exact ⟨trivial, by simp⟩
  | cons weight weights ih =>
    have hlow := hweights weight List.mem_cons_self
    have hrest : ∀ weight' ∈ weights, 1 ≤ weight' :=
      fun weight' hweight' => hweights weight' (List.mem_cons_of_mem _ hweight')
    have hnonneg : 0 ≤ weights.sum := by
      apply List.sum_nonneg
      intro weight' hweight'
      have hlow' := hrest weight' hweight'
      omega
    rw [List.sum_cons] at htotal
    have hadd : addWeight sum weight = sum + weight := by
      rw [addWeight, if_neg (by omega), wrap32_of_bounds (by omega) (by omega)]
    have hsum' : 0 ≤ sum + weight := by omega
    obtain ⟨hfits, hfold⟩ := ih hsum' hrest (by omega)
    rw [Fits, List.foldl_cons, hadd, hfold, List.sum_cons, if_pos (by omega)]
    refine ⟨⟨by omega, ?_⟩, by omega⟩
    rw [← sub_sub] at hfits
    apply hfits

/-! ### The constructor -/

/-- The weight of a backend as `NewWeightedRoundRobinBalancer` adds it to the total weight. -/
def constructorWeight (b : Backend) : ℤ :=
  let weight := if b.weight ≤ 0 then defaultBackendWeight else b.weight
  if maxInt32 < weight then defaultBackendWeight else weight

/-- The total weight `NewWeightedRoundRobinBalancer` computes. -/
def totalWeight (backends : List Backend) : ℤ :=
  (backends.map constructorWeight).foldl addWeight 0

theorem one_le_constructorWeight (b : Backend) :
  1 ≤ constructorWeight b
  := by
  simp only [constructorWeight, defaultBackendWeight]
  split
  · split
    · omega
    · omega
  · split
    · omega
    · omega

/-! ### The search -/

section

variable (wrr : WeightedRoundRobinBalancer)

/-- The weight at an index. -/
def weight (idx : ℕ) : ℤ := wrr.weights.getD idx 0

/-- The current weight at an index. -/
def current (idx : ℕ) : ℤ := wrr.currentWeights.getD idx 0

/-- The weight at an index is an `int32`, so that the index takes part in the search. -/
def Valid (idx : ℕ) : Prop := wrr.weight idx ≤ maxInt32

instance (idx : ℕ) : Decidable (wrr.Valid idx) := inferInstanceAs (Decidable (_ ≤ _))

/-- The current weight at an index raised by its weight. -/
def raised (idx : ℕ) : ℤ := addWeight (wrr.current idx) (wrr.weight idx)

/-- The weights that are summed up to the total of the candidates. -/
def validWeights (indices : List ℕ) : List ℤ :=
  (indices.filter (fun idx => decide (wrr.Valid idx))).map wrr.weight

/-- A balancer as runs leave it. -/
structure WellFormed : Prop where
  isOpen : wrr.closed = false
  weights_length : wrr.weights.length = wrr.backends.length
  current_length : wrr.currentWeights.length = wrr.backends.length
  one_le_weight : ∀ idx < wrr.backends.length, 1 ≤ wrr.weight idx
  current_inRange : ∀ idx, InRange (wrr.current idx)

/-- The largest raised weight among some indices, and where it is found: nowhere, if all of them
are negative. -/
structure Best (indices : List ℕ) (bestIdx : Option ℕ) (maxCurrentWeight : ℤ) : Prop where
  largest : ∀ i ∈ indices, wrr.Valid i → wrr.raised i ≤ maxCurrentWeight
  found : bestIdx = none ∧ maxCurrentWeight = -1 ∨
    ∃ i ∈ indices, bestIdx = some i ∧ maxCurrentWeight = wrr.raised i ∧ wrr.Valid i ∧
      0 ≤ wrr.raised i

/-- What the search has found among the indices it has gone through. -/
structure Searched (indices : List ℕ) (search : Search) : Prop where
  length : search.currentWeights.length = wrr.currentWeights.length
  current : ∀ i, search.currentWeights.getD i 0
    = if i ∈ indices ∧ wrr.Valid i then wrr.raised i else wrr.current i
  best : wrr.Best indices search.bestIdx search.maxCurrentWeight

end

variable {wrr : WeightedRoundRobinBalancer}

theorem totalHealthyWeight_eq (wrr : WeightedRoundRobinBalancer) (indices : List ℕ) :
  wrr.totalHealthyWeight indices = (wrr.validWeights indices).foldl addWeight 0
  := by
  rw [totalHealthyWeight, validWeights, List.foldl_map, List.foldl_filter]
  congr 1
  funext total idx
  by_cases hvalid : wrr.Valid idx
  · rw [decide_eq_true hvalid, if_pos rfl]
    apply if_neg (not_lt.mpr hvalid)
  · rw [decide_eq_false hvalid, if_neg Bool.false_ne_true]
    apply if_pos (not_le.mp hvalid)

/-- An index that is passed over, or whose raised weight is not larger. -/
theorem Best.keep {indices : List ℕ} {bestIdx : Option ℕ} {maxCurrentWeight : ℤ}
    (h : wrr.Best indices bestIdx maxCurrentWeight) {idx : ℕ}
    (hidx : wrr.Valid idx → wrr.raised idx ≤ maxCurrentWeight) :
  wrr.Best (indices ++ [idx]) bestIdx maxCurrentWeight
  := by
  constructor
  · intro j hj hvalid
    obtain hj | hj := List.mem_append.mp hj
    · apply h.largest j hj hvalid
    · obtain rfl := List.mem_singleton.mp hj
      apply hidx hvalid
  · obtain hnone | ⟨i, hi, hfound⟩ := h.found
    · apply Or.inl hnone
    · apply Or.inr ⟨i, List.mem_append_left _ hi, hfound⟩

/-- An index whose raised weight is larger than those before it. -/
theorem Best.take {indices : List ℕ} {bestIdx : Option ℕ} {maxCurrentWeight : ℤ}
    (h : wrr.Best indices bestIdx maxCurrentWeight) {idx : ℕ} (hvalid : wrr.Valid idx)
    (hlarger : maxCurrentWeight < wrr.raised idx) :
  wrr.Best (indices ++ [idx]) (some idx) (wrr.raised idx)
  := by
  have hlow : -1 ≤ maxCurrentWeight := by
    obtain ⟨-, hmax⟩ | ⟨i, -, -, hmax, -, hnonneg⟩ := h.found
    · omega
    · omega
  constructor
  · intro j hj hvalid'
    obtain hj | hj := List.mem_append.mp hj
    · apply (h.largest j hj hvalid').trans hlarger.le
    · obtain rfl := List.mem_singleton.mp hj
      apply le_refl
  · apply Or.inr ⟨idx, List.mem_append_right _ (List.mem_singleton_self idx), rfl, rfl, hvalid,
      by omega⟩

/-- One round of the search. -/
theorem Searched.step {indices : List ℕ} {search : Search} (h : wrr.Searched indices search)
    {idx : ℕ} (hnew : idx ∉ indices) (hlt : idx < wrr.currentWeights.length) :
  wrr.Searched (indices ++ [idx]) (wrr.searchStep search idx)
  := by
  have hcurrent : search.currentWeights.getD idx 0 = wrr.current idx := by
    rw [h.current, if_neg]
    rintro ⟨hmem, -⟩
    apply hnew hmem
  by_cases hvalid : wrr.Valid idx
  · -- the current weight is raised and compared with the largest one so far
    have hlength : (search.currentWeights.set idx (wrr.raised idx)).length
        = wrr.currentWeights.length := by rw [List.length_set, h.length]
    have hset : ∀ i, (search.currentWeights.set idx (wrr.raised idx)).getD i 0
        = if i ∈ indices ++ [idx] ∧ wrr.Valid i then wrr.raised i else wrr.current i := by
      intro i
      rw [getD_set _ (by rw [h.length]; apply hlt)]
      by_cases hi : i = idx
      · rw [if_pos hi, hi, if_pos ⟨by simp, hvalid⟩]
      · rw [if_neg hi, h.current]
        simp [hi]
    have hstep : wrr.searchStep search idx
        = if search.maxCurrentWeight < wrr.raised idx then
            ⟨search.currentWeights.set idx (wrr.raised idx), some idx, wrr.raised idx⟩
          else
            { search with
              currentWeights := search.currentWeights.set idx (wrr.raised idx) } := by
      rw [raised, ← hcurrent]
      apply if_neg (not_lt.mpr hvalid)
    rw [hstep]
    split
    · rename_i hlarger
      exact ⟨hlength, hset, h.best.take hvalid hlarger⟩
    · rename_i hnot
      exact ⟨hlength, hset, h.best.keep (fun _ => not_lt.mp hnot)⟩
  · -- an index whose weight is too large is passed over
    have hstep : wrr.searchStep search idx = search := if_pos (not_le.mp hvalid)
    rw [hstep]
    refine ⟨h.length, ?_, h.best.keep (fun hvalid' => absurd hvalid' hvalid)⟩
    intro i
    rw [h.current]
    by_cases hi : i = idx
    · rw [hi, if_neg (fun hboth => hvalid hboth.2), if_neg (fun hboth => hvalid hboth.2)]
    · simp [hi]

/-- The search through distinct indices. -/
theorem searched_foldl {indices : List ℕ} (hnodup : indices.Nodup)
    (hlt : ∀ i ∈ indices, i < wrr.currentWeights.length) :
  wrr.Searched indices (indices.foldl wrr.searchStep ⟨wrr.currentWeights, none, -1⟩)
  := by
  induction indices using List.reverseRecOn with
  | nil => exact ⟨rfl, fun i => by simp [current], ⟨by simp, Or.inl ⟨rfl, rfl⟩⟩⟩
  | append_singleton indices idx ih =>
    rw [List.foldl_concat]
    obtain ⟨hnodup', -, hdisjoint⟩ := List.nodup_append.mp hnodup
    apply Searched.step
    · apply ih hnodup'
      intro i hi
      apply hlt i (List.mem_append_left _ hi)
    · intro hmem
      apply hdisjoint idx hmem idx (List.mem_singleton_self idx) rfl
    · apply hlt idx (by simp)

/-- What `selectByWeight` does with distinct indices: it finds none if all raised weights are
negative, and otherwise one with the largest raised weight, from which the total is taken. -/
theorem selectByWeight_spec {indices : List ℕ} (hnodup : indices.Nodup)
    (hlt : ∀ i ∈ indices, i < wrr.currentWeights.length) :
  ((wrr.selectByWeight indices).1 = none ∧
      (∀ i ∈ indices, wrr.Valid i → wrr.raised i ≤ -1) ∧
      ∀ i, (wrr.selectByWeight indices).2.current i
        = if i ∈ indices ∧ wrr.Valid i then wrr.raised i else wrr.current i) ∨
    ∃ best ∈ indices, (wrr.selectByWeight indices).1 = some best ∧ wrr.Valid best ∧
      0 ≤ wrr.raised best ∧
      (∀ j ∈ indices, wrr.Valid j → wrr.raised j ≤ wrr.raised best) ∧
      ∀ i, (wrr.selectByWeight indices).2.current i
        = if i = best then wrap32 (wrr.raised best - wrr.totalHealthyWeight indices)
          else if i ∈ indices ∧ wrr.Valid i then wrr.raised i else wrr.current i
  := by
  have hsearch := searched_foldl hnodup hlt
  rw [selectByWeight]
  generalize indices.foldl wrr.searchStep ⟨wrr.currentWeights, none, -1⟩ = search at hsearch
  have hall := hsearch.best.largest
  obtain ⟨hnone, hmax⟩ | ⟨best, hmem, hsome, hmax, hvalid, hnonneg⟩ := hsearch.best.found
  · apply Or.inl
    rw [hmax] at hall
    simp only [hnone]
    exact ⟨trivial, hall, hsearch.current⟩
  · apply Or.inr
    rw [hmax] at hall
    simp only [hsome]
    refine ⟨best, hmem, rfl, hvalid, hnonneg, hall, ?_⟩
    intro i
    have hbest := hsearch.current best
    rw [if_pos ⟨hmem, hvalid⟩] at hbest
    rw [current, getD_set _ (by rw [hsearch.length]; apply hlt best hmem), hbest,
      hsearch.current]

/-- A call with two candidates or more. -/
theorem nextBackend_of_two (hopen : wrr.closed = false)
    (htwo : 2 ≤ (candidateIndices wrr.backends).length) :
  wrr.nextBackend
    = (match (wrr.selectByWeight (candidateIndices wrr.backends)).1 with
        | none => .panicked
        | some selectedIdx => Selection.at wrr.backends selectedIdx,
        (wrr.selectByWeight (candidateIndices wrr.backends)).2)
  := by
  rw [nextBackend, hopen, if_neg Bool.false_ne_true]
  cases hcandidates : candidateIndices wrr.backends with
  | nil =>
    rw [hcandidates] at htwo
    simp at htwo
  | cons idx rest =>
    cases rest with
    | nil =>
      rw [hcandidates] at htwo
      simp at htwo
    | cons idx' rest =>
      dsimp only
      obtain ⟨bestIdx, wrr'⟩ := wrr.selectByWeight (idx :: idx' :: rest)
      cases bestIdx with
      | none => rfl
      | some bestIdx => rfl

/-- A call with one candidate. -/
theorem nextBackend_of_one (hopen : wrr.closed = false) {idx : ℕ}
    (hone : candidateIndices wrr.backends = [idx]) :
  wrr.nextBackend = (Selection.at wrr.backends idx, wrr)
  := by
  rw [nextBackend, hopen, if_neg Bool.false_ne_true, hone]

/-- A call with less than two candidates changes nothing. -/
theorem nextBackend_of_few (hfew : (candidateIndices wrr.backends).length < 2) :
  wrr.nextBackend.2 = wrr
  := by
  rw [nextBackend]
  split
  · rfl
  · cases hcandidates : candidateIndices wrr.backends with
    | nil => rfl
    | cons idx rest =>
      cases rest with
      | nil => rfl
      | cons idx' rest =>
        rw [hcandidates] at hfew
        simp at hfew

/-- `selectByWeight` changes current weights only. -/
theorem selectByWeight_fields {indices : List ℕ} (hnodup : indices.Nodup)
    (hlt : ∀ i ∈ indices, i < wrr.currentWeights.length) :
  ∃ currentWeights, (wrr.selectByWeight indices).2 = { wrr with currentWeights := currentWeights } ∧
    currentWeights.length = wrr.currentWeights.length
  := by
  have hsearch := searched_foldl hnodup hlt
  rw [selectByWeight]
  generalize indices.foldl wrr.searchStep ⟨wrr.currentWeights, none, -1⟩ = search at hsearch
  dsimp only
  split
  · exact ⟨_, rfl, hsearch.length⟩
  · exact ⟨_, rfl, by rw [List.length_set, hsearch.length]⟩

/-! ### Calls -/

/-- The weight of a new balancer is the one of the backend, or the default. -/
theorem weight_new (backends : List Backend) {i : ℕ} (hi : i < backends.length) :
  (new backends).weight i
    = if backends[i].weight ≤ 0 then defaultBackendWeight else backends[i].weight
  := by
  rw [weight, List.getD_eq_getElem?_getD, new, List.getElem?_map, List.getElem?_eq_getElem hi]
  rfl

theorem current_new (backends : List Backend) (i : ℕ) :
  (new backends).current i = 0
  := by
  rw [current, List.getD_eq_getElem?_getD, new, List.getElem?_map]
  cases backends[i]? with
  | none => rfl
  | some b => rfl

theorem wellFormed_new (backends : List Backend) :
  (new backends).WellFormed
  := by
  refine ⟨rfl, List.length_map _, List.length_map _, ?_, ?_⟩
  · intro idx hidx
    rw [weight_new backends hidx, defaultBackendWeight]
    split
    · omega
    · omega
  · intro idx
    rw [current_new, InRange, maxInt32]
    omega

section

variable (h : wrr.WellFormed)

include h

theorem WellFormed.lt_of_mem {i : ℕ} (hi : i ∈ candidateIndices wrr.backends) :
  i < wrr.currentWeights.length
  := by
  rw [h.current_length]
  apply lt_of_mem_candidateIndices hi

theorem WellFormed.selectByWeight :
  (wrr.selectByWeight (candidateIndices wrr.backends)).2.WellFormed
  := by
  have hnodup := nodup_candidateIndices wrr.backends
  have hlt : ∀ i ∈ candidateIndices wrr.backends, i < wrr.currentWeights.length :=
    fun _ => h.lt_of_mem
  have hrange : ∀ i, InRange
      ((wrr.selectByWeight (candidateIndices wrr.backends)).2.current i) := by
    intro i
    obtain ⟨-, -, hcurrent⟩ | ⟨best, -, -, -, -, -, hcurrent⟩ := selectByWeight_spec hnodup hlt
    · rw [hcurrent]
      split
      · apply wrap32_bounds
      · apply h.current_inRange
    · rw [hcurrent]
      split
      · apply wrap32_bounds
      · split
        · apply wrap32_bounds
        · apply h.current_inRange
  obtain ⟨currentWeights, hfields, hlength⟩ := selectByWeight_fields hnodup hlt
  rw [hfields] at hrange ⊢
  exact ⟨h.isOpen, h.weights_length, hlength.trans h.current_length, h.one_le_weight, hrange⟩

theorem WellFormed.nextBackend :
  wrr.nextBackend.2.WellFormed
  := by
  by_cases htwo : 2 ≤ (candidateIndices wrr.backends).length
  · rw [nextBackend_of_two h.isOpen htwo]
    apply h.selectByWeight
  · rw [nextBackend_of_few (by omega)]
    apply h

theorem WellFormed.updateBackendState (backendURL : GoString) (newState : BackendState) :
  (wrr.updateBackendState backendURL newState).WellFormed
  := by
  have hlength := length_updateState backendURL newState wrr.backends
  refine ⟨h.isOpen, ?_, ?_, ?_, h.current_inRange⟩
  · apply h.weights_length.trans hlength.symm
  · apply h.current_length.trans hlength.symm
  · intro idx hidx
    apply h.one_le_weight idx
    rw [← hlength]
    apply hidx

/-- A call with two candidates or more finds an index exactly when a raised weight is not
negative. -/
theorem WellFormed.selectByWeight_ne_none_iff :
  (wrr.selectByWeight (candidateIndices wrr.backends)).1 ≠ none ↔
    ∃ i ∈ candidateIndices wrr.backends, wrr.Valid i ∧ 0 ≤ wrr.raised i
  := by
  obtain ⟨hnone, hall, -⟩ | ⟨best, hbest, hsome, hvalid, hnonneg, -⟩ :=
    selectByWeight_spec (nodup_candidateIndices wrr.backends) (fun _ => h.lt_of_mem)
  · apply iff_of_false
    · apply not_not.mpr hnone
    · rintro ⟨i, hi, hvalid, hnonneg⟩
      have hneg := hall i hi hvalid
      omega
  · apply iff_of_true
    · rw [hsome]
      simp
    · exact ⟨best, hbest, hvalid, hnonneg⟩

/-- A raised weight is not negative exactly when the sum is not, and the current weight is
below its largest value. -/
theorem WellFormed.raised_nonneg_iff {i : ℕ} (hi : i ∈ candidateIndices wrr.backends)
    (hvalid : wrr.Valid i) :
  0 ≤ wrr.raised i ↔ 0 ≤ wrr.current i + wrr.weight i ∧ wrr.current i ≠ maxInt32
  := by
  have hlow := h.one_le_weight i (lt_of_mem_candidateIndices hi)
  have hrange := h.current_inRange i
  have hiff := inRange_guarded_iff hrange hlow
  obtain ⟨hlow', hhigh'⟩ := hrange
  by_cases hfull : wrr.current i = maxInt32
  · apply iff_of_false
    · rw [raised, addWeight, hfull, if_pos (by omega), defaultBackendWeight,
        wrap32_maxInt32_add_one]
      omega
    · rintro ⟨-, hne⟩
      apply hne hfull
  · rw [and_iff_left hfull, raised, addWeight_eq, wrap32_of_inRange (hiff.mpr hfull), guarded,
      defaultBackendWeight]
    rw [Valid] at hvalid
    split
    · omega
    · rfl

end

/-! ### Calls that select a backend -/

/-- A call made while a backend is healthy returns one that is, and a search finds an index. -/
structure Returns (wrr : WeightedRoundRobinBalancer) : Prop where
  returns : AnyHealthy wrr.backends →
    ∃ b ∈ wrr.backends, b.state = .healthy ∧ wrr.nextBackend.1 = .selected b
  finds : 2 ≤ (candidateIndices wrr.backends).length →
    (wrr.selectByWeight (candidateIndices wrr.backends)).1 ≠ none

/-- If there are two candidates or more, the current weight of one of them, raised by its
weight, is not negative, and it is below the largest value. -/
def HasReserve (wrr : WeightedRoundRobinBalancer) : Prop :=
  2 ≤ (candidateIndices wrr.backends).length →
    ∃ i ∈ candidateIndices wrr.backends,
      0 ≤ wrr.current i + wrr.weight i ∧ wrr.current i ≠ maxInt32

instance (wrr : WeightedRoundRobinBalancer) : Decidable wrr.HasReserve :=
  inferInstanceAs (Decidable (_ → _))

/-- While a backend is healthy, a call selects one that is exactly when a search, if there is
one, finds an index. -/
theorem WellFormed.selects_healthy_iff (h : wrr.WellFormed) (hhealthy : AnyHealthy wrr.backends) :
  (∃ b ∈ wrr.backends, b.state = .healthy ∧ wrr.nextBackend.1 = .selected b) ↔
    (2 ≤ (candidateIndices wrr.backends).length →
      (wrr.selectByWeight (candidateIndices wrr.backends)).1 ≠ none)
  := by
  obtain ⟨hne, hall⟩ := candidateIndices_of_anyHealthy hhealthy
  constructor
  · rintro ⟨b, -, -, hselected⟩ htwo hnone
    rw [nextBackend_of_two h.isOpen htwo, hnone] at hselected
    cases hselected
  · intro hfinds
    by_cases htwo : 2 ≤ (candidateIndices wrr.backends).length
    · obtain ⟨i, hi⟩ := Option.ne_none_iff_exists'.mp (hfinds htwo)
      obtain ⟨b, hb, hstate, hselected⟩ := hall i (selectByWeight_mem hi)
      use b, hb, hstate
      rw [nextBackend_of_two h.isOpen htwo, hi]
      apply hselected
    · have hpos := List.length_pos_iff.mpr hne
      obtain ⟨i, hone⟩ := List.length_eq_one_iff.mp
        (show (candidateIndices wrr.backends).length = 1 by omega)
      obtain ⟨b, hb, hstate, hselected⟩ := hall i (by rw [hone]; apply List.mem_singleton_self)
      use b, hb, hstate
      rw [nextBackend_of_one h.isOpen hone]
      apply hselected

/-- A call of a balancer whose weights are `int32` selects a backend exactly when one of the
candidates has a reserve. -/
theorem WellFormed.returns_iff (h : wrr.WellFormed)
    (hvalid : ∀ i < wrr.backends.length, wrr.Valid i) :
  wrr.Returns ↔ wrr.HasReserve
  := by
  have hfinds : (2 ≤ (candidateIndices wrr.backends).length →
      (wrr.selectByWeight (candidateIndices wrr.backends)).1 ≠ none) ↔ wrr.HasReserve := by
    apply imp_congr_right
    intro _
    rw [h.selectByWeight_ne_none_iff]
    constructor
    · rintro ⟨i, hi, hvalid', hnonneg⟩
      exact ⟨i, hi, (h.raised_nonneg_iff hi hvalid').mp hnonneg⟩
    · rintro ⟨i, hi, hreserve⟩
      have hvalid' := hvalid i (lt_of_mem_candidateIndices hi)
      exact ⟨i, hi, hvalid', (h.raised_nonneg_iff hi hvalid').mpr hreserve⟩
  rw [← hfinds]
  constructor
  · intro hreturns
    apply hreturns.finds
  · intro hall
    constructor
    · intro hhealthy
      apply (h.selects_healthy_iff hhealthy).mpr hall
    · apply hall

/-! ### Calls that sum up integers -/

/-- The sums of a call are the sums of integers, the total of the candidates is not negative,
and the call returns a healthy backend if there is one. -/
structure Sound (wrr : WeightedRoundRobinBalancer) : Prop where
  total : 2 ≤ (candidateIndices wrr.backends).length →
    ∀ x ∈ additions 0 (wrr.validWeights (candidateIndices wrr.backends)), InRange x
  total_nonneg : 2 ≤ (candidateIndices wrr.backends).length →
    0 ≤ wrr.totalHealthyWeight (candidateIndices wrr.backends)
  raised : 2 ≤ (candidateIndices wrr.backends).length →
    ∀ i ∈ candidateIndices wrr.backends, wrr.Valid i →
      InRange (wrr.current i + guarded (wrr.current i) (wrr.weight i))
  reduced : 2 ≤ (candidateIndices wrr.backends).length →
    ∀ best, (wrr.selectByWeight (candidateIndices wrr.backends)).1 = some best →
      InRange (wrr.raised best - wrr.totalHealthyWeight (candidateIndices wrr.backends))
  returns : AnyHealthy wrr.backends →
    ∃ b ∈ wrr.backends, b.state = .healthy ∧ wrr.nextBackend.1 = .selected b

/-- If there are two candidates or more, those of their weights that are `int32` fit, no
current weight of theirs is at its largest value, and, if a backend is healthy, one of them
raised by its weight is not negative. -/
def Bounded (wrr : WeightedRoundRobinBalancer) : Prop :=
  2 ≤ (candidateIndices wrr.backends).length →
    Fits maxInt32 (wrr.validWeights (candidateIndices wrr.backends)) ∧
    (∀ i ∈ candidateIndices wrr.backends, wrr.Valid i → wrr.current i ≠ maxInt32) ∧
    (AnyHealthy wrr.backends →
      ∃ i ∈ candidateIndices wrr.backends, wrr.Valid i ∧ 0 ≤ wrr.current i + wrr.weight i)

theorem WellFormed.one_le_validWeights (h : wrr.WellFormed) :
  ∀ weight ∈ wrr.validWeights (candidateIndices wrr.backends), 1 ≤ weight
  := by
  intro weight hweight
  obtain ⟨i, hi, rfl⟩ := List.mem_map.mp hweight
  apply h.one_le_weight i
  apply lt_of_mem_candidateIndices (List.mem_of_mem_filter hi)

/-- The total of the candidates is the sum of integers exactly when their weights fit, and then
it is an `int32` that is not negative. -/
theorem WellFormed.total_iff (h : wrr.WellFormed) :
  ((∀ x ∈ additions 0 (wrr.validWeights (candidateIndices wrr.backends)), InRange x) ↔
      Fits maxInt32 (wrr.validWeights (candidateIndices wrr.backends))) ∧
    (Fits maxInt32 (wrr.validWeights (candidateIndices wrr.backends)) →
      0 ≤ wrr.totalHealthyWeight (candidateIndices wrr.backends) ∧
      wrr.totalHealthyWeight (candidateIndices wrr.backends) ≤ maxInt32)
  := by
  rw [totalHealthyWeight_eq]
  apply additions_inRange_iff (le_refl 0) (by decide) h.one_le_validWeights

theorem WellFormed.raised_iff (h : wrr.WellFormed) {i : ℕ}
    (hi : i ∈ candidateIndices wrr.backends) :
  InRange (wrr.current i + guarded (wrr.current i) (wrr.weight i)) ↔
    wrr.current i ≠ maxInt32
  := inRange_guarded_iff (h.current_inRange i) (h.one_le_weight i (lt_of_mem_candidateIndices hi))

/-- The total can be taken from the raised weight that is picked. -/
theorem WellFormed.inRange_reduced (h : wrr.WellFormed)
    (hfits : Fits maxInt32 (wrr.validWeights (candidateIndices wrr.backends))) {best : ℕ}
    (hbest : (wrr.selectByWeight (candidateIndices wrr.backends)).1 = some best) :
  InRange (wrr.raised best - wrr.totalHealthyWeight (candidateIndices wrr.backends))
  := by
  obtain ⟨hlow, hhigh⟩ := h.total_iff.2 hfits
  have hraised := (wrap32_bounds (wrr.current best + guarded (wrr.current best)
    (wrr.weight best))).2
  rw [← addWeight_eq, ← raised] at hraised
  obtain ⟨hnone, -, -⟩ | ⟨best', -, hsome, -, hnonneg, -, -⟩ :=
    selectByWeight_spec (nodup_candidateIndices wrr.backends) (fun _ => h.lt_of_mem)
  · rw [hnone] at hbest
    cases hbest
  · obtain rfl : best' = best := Option.some.inj (hsome.symm.trans hbest)
    rw [maxInt32] at hhigh
    constructor
    · omega
    · omega

/-- A call is sound exactly when it is bounded. -/
theorem WellFormed.sound_iff (h : wrr.WellFormed) :
  wrr.Sound ↔ wrr.Bounded
  := by
  constructor
  · intro hsound htwo
    refine ⟨h.total_iff.1.mp (hsound.total htwo), ?_, ?_⟩
    · intro i hi hvalid
      apply (h.raised_iff hi).mp (hsound.raised htwo i hi hvalid)
    · intro hhealthy
      have hfinds := (h.selects_healthy_iff hhealthy).mp (hsound.returns hhealthy) htwo
      obtain ⟨i, hi, hvalid, hnonneg⟩ := h.selectByWeight_ne_none_iff.mp hfinds
      exact ⟨i, hi, hvalid, ((h.raised_nonneg_iff hi hvalid).mp hnonneg).1⟩
  · intro hbounded
    refine ⟨?_, ?_, ?_, ?_, ?_⟩
    · intro htwo
      apply h.total_iff.1.mpr (hbounded htwo).1
    · intro htwo
      apply (h.total_iff.2 (hbounded htwo).1).1
    · intro htwo i hi hvalid
      apply (h.raised_iff hi).mpr ((hbounded htwo).2.1 i hi hvalid)
    · intro htwo best hbest
      apply h.inRange_reduced (hbounded htwo).1 hbest
    · intro hhealthy
      apply (h.selects_healthy_iff hhealthy).mpr
      intro htwo
      obtain ⟨-, hbelow, hreserve⟩ := hbounded htwo
      obtain ⟨i, hi, hvalid, hnonneg⟩ := hreserve hhealthy
      apply h.selectByWeight_ne_none_iff.mpr
      use i, hi, hvalid
      apply (h.raised_nonneg_iff hi hvalid).mpr ⟨hnonneg, hbelow i hi hvalid⟩

end WeightedRoundRobinBalancer

/-! ### Runs -/

namespace Weighted

open WeightedRoundRobinBalancer

inductive Action where
  | nextBackend
  | updateBackendState (backendURL : GoString) (newState : BackendState)

def machine : Machine WeightedRoundRobinBalancer Action where
  step wrr a :=
    match a with
    | .nextBackend => some wrr.nextBackend.2
    | .updateBackendState backendURL newState =>
      some (wrr.updateBackendState backendURL newState)

/-- A condition on the balancer as a call of `NextBackend` finds it. -/
def AtCalls (P : WeightedRoundRobinBalancer → Prop) (wrr : WeightedRoundRobinBalancer) :
    Action → Prop
  | .nextBackend => P wrr
  | .updateBackendState _ _ => True

instance decidableAtCalls {P : WeightedRoundRobinBalancer → Prop} [∀ wrr, Decidable (P wrr)]
    (wrr : WeightedRoundRobinBalancer) : ∀ a, Decidable (AtCalls P wrr a)
  | .nextBackend => inferInstanceAs (Decidable (P wrr))
  | .updateBackendState _ _ => isTrue trivial

theorem wellFormed_step (wrr : WeightedRoundRobinBalancer) (a : Action)
    (wrr' : WeightedRoundRobinBalancer) (h : wrr.WellFormed)
    (hstep : machine.step wrr a = some wrr') :
  wrr'.WellFormed
  := by
  cases a with
  | nextBackend =>
    obtain rfl := Option.some.inj hstep
    apply h.nextBackend
  | updateBackendState backendURL newState =>
    obtain rfl := Option.some.inj hstep
    apply h.updateBackendState

/-- A step leaves the weights as they are, and the number of backends. -/
theorem weights_step {wrr wrr' : WeightedRoundRobinBalancer} {a : Action} (h : wrr.WellFormed)
    (hstep : machine.step wrr a = some wrr') :
  wrr'.weights = wrr.weights ∧ wrr'.backends.length = wrr.backends.length
  := by
  cases a with
  | nextBackend =>
    obtain rfl := Option.some.inj hstep
    rw [wrr.backends_nextBackend]
    refine ⟨?_, rfl⟩
    by_cases htwo : 2 ≤ (candidateIndices wrr.backends).length
    · obtain ⟨currentWeights, hfields, -⟩ := selectByWeight_fields
        (nodup_candidateIndices wrr.backends) (fun _ => h.lt_of_mem)
      rw [nextBackend_of_two h.isOpen htwo, hfields]
    · rw [nextBackend_of_few (by omega)]
  | updateBackendState backendURL newState =>
    obtain rfl := Option.some.inj hstep
    exact ⟨rfl, length_updateState backendURL newState wrr.backends⟩

/-- For weights that are positive `int32`, every call of a run returns a healthy backend while
there is one exactly when at every call some candidate has a reserve. -/
theorem returns_iff_hasReserve (backends : List Backend)
    (hweights : ∀ b ∈ backends, 1 ≤ b.weight ∧ b.weight ≤ maxInt32) (actions : List Action) :
  machine.Meets (AtCalls Returns) (new backends) actions ↔
    machine.Meets (AtCalls HasReserve) (new backends) actions
  := by
  apply Machine.meets_congr
    (J := fun wrr => wrr.WellFormed ∧ ∀ i < wrr.backends.length, wrr.Valid i)
  · rintro wrr a wrr' ⟨h, hvalid⟩ hstep
    use wellFormed_step wrr a wrr' h hstep
    obtain ⟨hsame, hlength⟩ := weights_step h hstep
    rw [hlength]
    intro i hi
    rw [Valid, weight, hsame]
    apply hvalid i hi
  · rintro wrr a ⟨h, hvalid⟩
    cases a with
    | nextBackend => apply h.returns_iff hvalid
    | updateBackendState backendURL newState => rfl
  · use wellFormed_new backends
    intro i hi
    change i < backends.length at hi
    obtain ⟨hlow, hhigh⟩ := hweights _ (List.getElem_mem hi)
    rw [Valid, weight_new backends hi, if_neg (by omega)]
    apply hhigh

/-- A total weight, and in a run every call, is sound exactly when the weights fit and every
call is bounded. -/
theorem sound_iff_bounded (backends : List Backend) (actions : List Action) :
  ((∀ x ∈ additions 0 (backends.map constructorWeight), InRange x) ∧ 0 ≤ totalWeight backends ∧
      machine.Meets (AtCalls Sound) (new backends) actions) ↔
    Fits maxInt32 (backends.map constructorWeight) ∧
      machine.Meets (AtCalls Bounded) (new backends) actions
  := by
  have hweights : ∀ weight ∈ backends.map constructorWeight, 1 ≤ weight := by
    intro weight hweight
    obtain ⟨b, -, rfl⟩ := List.mem_map.mp hweight
    apply one_le_constructorWeight
  obtain ⟨htotal, hbounds⟩ := additions_inRange_iff (le_refl 0) (by decide) hweights
  rw [sub_zero] at htotal hbounds
  have hruns : machine.Meets (AtCalls Sound) (new backends) actions ↔
      machine.Meets (AtCalls Bounded) (new backends) actions := by
    apply Machine.meets_congr wellFormed_step _ (wellFormed_new backends)
    intro wrr a h
    cases a with
    | nextBackend => apply h.sound_iff
    | updateBackendState backendURL newState => rfl
  rw [htotal, hruns]
  constructor
  · rintro ⟨hfits, -, hmeets⟩
    exact ⟨hfits, hmeets⟩
  · rintro ⟨hfits, hmeets⟩
    exact ⟨hfits, (hbounds hfits).1, hmeets⟩

/-! ### Runs that fail -/

/-- Backends of weight one. -/
def four : List Backend :=
  [⟨str "http://a", 1, .healthy⟩, ⟨str "http://b", 1, .healthy⟩, ⟨str "http://c", 1, .healthy⟩,
    ⟨str "http://d", 1, .healthy⟩]

/-- Of four backends two are selected, and then the two others are lost: the next call panics,
although the first two are healthy. -/
theorem panics_after_losses :
  ¬ machine.Meets (AtCalls Returns) (new four)
    [.nextBackend, .nextBackend, .updateBackendState (str "http://c") .unhealthy,
      .updateBackendState (str "http://d") .unhealthy, .nextBackend]
  := by
  intro h
  obtain ⟨-, h⟩ := h _ rfl
  obtain ⟨-, h⟩ := h _ rfl
  obtain ⟨-, h⟩ := h _ rfl
  obtain ⟨-, h⟩ := h _ rfl
  obtain ⟨hreturns, -⟩ := h _ rfl
  apply hreturns.finds
  · decide +kernel
  · decide +kernel

/-- One of the four is lost and comes back; every call returns one that is healthy. -/
theorem returns_after_recovery :
  machine.Meets (AtCalls Returns) (new four)
    [.nextBackend, .updateBackendState (str "http://d") .unhealthy, .nextBackend, .nextBackend,
      .nextBackend, .updateBackendState (str "http://d") .healthy, .nextBackend, .nextBackend]
  := by
  apply (returns_iff_hasReserve four (by decide) _).mpr
  decide +kernel

/-- Two backends, one with the largest weight: the total weight overflows. -/
theorem total_overflows :
  (∀ b ∈ [(⟨str "http://a", 2147483647, .healthy⟩ : Backend), ⟨str "http://b", 1, .healthy⟩],
      0 ≤ b.weight) ∧
    totalWeight [⟨str "http://a", 2147483647, .healthy⟩, ⟨str "http://b", 1, .healthy⟩]
      = -2147483648 ∧
    ¬ machine.Meets (AtCalls Sound)
      (new [⟨str "http://a", 2147483647, .healthy⟩, ⟨str "http://b", 1, .healthy⟩])
      [.nextBackend]
  := by
  refine ⟨by decide, by decide +kernel, ?_⟩
  intro h
  obtain ⟨hsound, -⟩ := h _ rfl
  have hnonneg := hsound.total_nonneg (by decide +kernel)
  revert hnonneg
  decide +kernel

end Weighted

end Proxy

end VmProxyAuth
