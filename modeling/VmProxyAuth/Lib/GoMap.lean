import VmProxyAuth.Lib.GoString

/-!
# Maps

A Go map is a finite association list without repeated keys, `AList` of Mathlib; the
order of its entries is the order in which a `range` over it visits them.  `mapFilter`
is a loop that builds a new map from some of the entries, and `MultiMap` is
`map[K][]V`, the type of query parameters and of headers.
-/

universe u v w

/-- A Go map from `K` to `V`. -/
abbrev GoMap (K : Type u) (V : Type v) : Type (max u v) := AList (fun _ : K => V)

namespace GoMap

variable {K : Type u} {V : Type v} {W : Type w}

private def entryMap (f : K → V → Option W) (e : Sigma (fun _ : K => V)) :
    Option (Sigma (fun _ : K => W)) :=
  (f e.1 e.2).map (Sigma.mk e.1)

private theorem keys_filterMap_sublist (f : K → V → Option W) (l : List (Sigma fun _ : K => V)) :
  (l.filterMap (entryMap f)).keys.Sublist l.keys
  := by
  induction l with
  | nil => apply List.Sublist.refl
  | cons e l ih =>
    rw [List.filterMap_cons]
    cases h : f e.1 e.2 with
    | none =>
      simp only [entryMap, h, Option.map_none]
      apply ih.cons
    | some y =>
      simp only [entryMap, h, Option.map_some]
      apply ih.cons_cons

/-- The map holding, for every entry `k`, `v` of `m`, the value of `f k v` under `k`, if
there is one. -/
def mapFilter (f : K → V → Option W) (m : GoMap K V) : GoMap K W where
  entries := m.entries.filterMap (entryMap f)
  nodupKeys := (keys_filterMap_sublist f m.entries).nodup m.nodupKeys

/-- The entries of a map, in the order of a `range`. -/
def items (m : GoMap K V) : List (K × V) := m.entries.map (fun e => (e.1, e.2))

theorem nodup_items_fst (m : GoMap K V) :
  (m.items.map Prod.fst).Nodup
  := by
  rw [items, List.map_map]
  apply m.nodupKeys

variable [DecidableEq K]

private theorem dlookup_filterMap (f : K → V → Option W) (k : K) {l : List (Sigma fun _ : K => V)}
    (h : l.NodupKeys) :
  (l.filterMap (entryMap f)).dlookup k = (l.dlookup k).bind (f k)
  := by
  induction l with
  | nil => rfl
  | cons e l ih =>
    obtain ⟨k', y⟩ := e
    obtain ⟨hk', hl⟩ := List.nodupKeys_cons.mp h
    rw [List.filterMap_cons]
    by_cases hk : k = k'
    · subst hk
      rw [List.dlookup_cons_eq, Option.bind_some]
      cases hf : f k y with
      | none =>
        simp only [entryMap, hf, Option.map_none]
        rw [List.dlookup_eq_none]
        intro hmem
        apply hk' ((keys_filterMap_sublist f l).subset hmem)
      | some z =>
        simp only [entryMap, hf, Option.map_some]
        apply List.dlookup_cons_eq
    · rw [List.dlookup_cons_ne l ⟨k', y⟩ hk, ← ih hl]
      cases hf : f k' y with
      | none => simp only [entryMap, hf, Option.map_none]
      | some z =>
        simp only [entryMap, hf, Option.map_some]
        rw [List.dlookup_cons_ne]
        apply hk

@[simp]
theorem lookup_mapFilter (f : K → V → Option W) (m : GoMap K V) (k : K) :
  (mapFilter f m).lookup k = (m.lookup k).bind (f k)
  := dlookup_filterMap f k m.nodupKeys

/-- What the map holds under `k` after storing `x` under `k'`. -/
theorem lookup_insert_eq_ite (m : GoMap K V) (k k' : K) (x : V) :
  (m.insert k' x).lookup k = if k = k' then some x else m.lookup k
  := by
  by_cases h : k = k'
  · subst h
    rw [if_pos rfl]
    apply AList.lookup_insert
  · rw [if_neg h]
    apply AList.lookup_insert_ne h

/-- What the map holds under `k` after deleting `k'`. -/
theorem lookup_erase_eq_ite (m : GoMap K V) (k k' : K) :
  (m.erase k').lookup k = if k = k' then none else m.lookup k
  := by
  by_cases h : k = k'
  · subst h
    rw [if_pos rfl]
    apply AList.lookup_erase
  · rw [if_neg h]
    apply AList.lookup_erase_ne h

/-- The entries of a map after storing `x` under `k'`. -/
theorem lookup_insert_eq_some {m : GoMap K V} {k k' : K} {x y : V} :
  (m.insert k' x).lookup k = some y ↔ (k = k' ∧ x = y) ∨ (k ≠ k' ∧ m.lookup k = some y)
  := by
  rw [lookup_insert_eq_ite]
  split_ifs with h
  · simp [h]
  · simp [h]

/-- The entries of a map after deleting `k'`. -/
theorem lookup_erase_eq_some {m : GoMap K V} {k k' : K} {y : V} :
  (m.erase k').lookup k = some y ↔ k ≠ k' ∧ m.lookup k = some y
  := by
  rw [lookup_erase_eq_ite]
  split_ifs with h
  · simp [h]
  · simp [h]

/-- A loop that sets the entries of a list, in order. -/
def setAll (m : GoMap K V) (l : List (K × V)) : GoMap K V :=
  l.foldl (fun m e => AList.insert e.1 e.2 m) m

/-- The items are the entries looked up. -/
theorem mem_items {m : GoMap K V} {k : K} {v : V} :
  (k, v) ∈ m.items ↔ m.lookup k = some v
  := by
  rw [items, List.mem_map, ← Option.mem_def, AList.mem_lookup_iff]
  constructor
  · rintro ⟨e, he, heq⟩
    obtain ⟨rfl, rfl⟩ := Prod.mk.inj heq
    apply he
  · intro h
    use ⟨k, v⟩

/-- Setting entries leaves the other keys as they are. -/
theorem lookup_setAll_of_notMem {k : K} {l : List (K × V)} (h : k ∉ l.map Prod.fst)
    (m : GoMap K V) :
  (m.setAll l).lookup k = m.lookup k
  := by
  induction l generalizing m with
  | nil => rfl
  | cons e l ih =>
    rw [List.map_cons, List.mem_cons, not_or] at h
    rw [setAll, List.foldl_cons, ← setAll, ih h.2, AList.lookup_insert_ne h.1]

/-- Setting entries with different keys sets each of them. -/
theorem lookup_setAll_of_mem {k : K} {v : V} {l : List (K × V)} (hmem : (k, v) ∈ l)
    (hnodup : (l.map Prod.fst).Nodup) (m : GoMap K V) :
  (m.setAll l).lookup k = some v
  := by
  induction l generalizing m with
  | nil => cases hmem
  | cons e l ih =>
    rw [List.map_cons, List.nodup_cons] at hnodup
    rw [setAll, List.foldl_cons, ← setAll]
    rcases List.mem_cons.mp hmem with rfl | htail
    · rw [lookup_setAll_of_notMem hnodup.1, AList.lookup_insert]
    · apply ih htail hnodup.2

/-- A map made from entries with different keys has these entries. -/
theorem perm_items_setAll {l : List (K × V)} (hnodup : (l.map Prod.fst).Nodup) :
  ((∅ : GoMap K V).setAll l).items.Perm l
  := by
  have hitems : ((∅ : GoMap K V).setAll l).items.Nodup :=
    List.Nodup.of_map Prod.fst (nodup_items_fst _)
  apply (List.perm_ext_iff_of_nodup hitems (List.Nodup.of_map Prod.fst hnodup)).mpr
  rintro ⟨k, v⟩
  rw [mem_items]
  constructor
  · intro hlookup
    by_cases hmem : k ∈ l.map Prod.fst
    · obtain ⟨⟨k', v'⟩, he, rfl⟩ := List.mem_map.mp hmem
      have heq := lookup_setAll_of_mem he hnodup ∅
      rw [hlookup] at heq
      obtain rfl := Option.some.inj heq
      apply he
    · rw [lookup_setAll_of_notMem hmem] at hlookup
      cases hlookup
  · intro hmem
    apply lookup_setAll_of_mem hmem hnodup

/-- A loop over a map that sets a field to the value of a key. -/
theorem foldl_items_of_key {σ : Type*} {step : σ → K × V → σ} {field : σ → V} {k : K}
    (h : ∀ s e, field (step s e) = if e.1 = k then e.2 else field s) (m : GoMap K V) (s : σ) :
  field (m.items.foldl step s) = (m.lookup k).getD (field s)
  := by
  have hloop : ∀ (l : List (Sigma fun _ : K => V)) (s : σ), l.NodupKeys →
      field ((l.map (fun e => (e.1, e.2))).foldl step s) = (l.dlookup k).getD (field s) := by
    intro l
    induction l with
    | nil =>
      intro s _
      rfl
    | cons e l ih =>
      intro s hl
      obtain ⟨k', v⟩ := e
      obtain ⟨hk', hl⟩ := List.nodupKeys_cons.mp hl
      rw [List.map_cons, List.foldl_cons, ih _ hl, h]
      by_cases hk : k' = k
      · subst hk
        rw [List.dlookup_cons_eq, List.dlookup_eq_none.mpr hk', if_pos rfl]
        rfl
      · rw [List.dlookup_cons_ne l ⟨k', v⟩ (Ne.symm hk), if_neg hk]
  apply hloop m.entries s m.nodupKeys

/-- Setting entries made from those of a map, in any order of a `range` over it, under keys
made from theirs. -/
theorem lookup_setAll_map_key {L : Type u} [DecidableEq L] {g : K → L} (hg : g.Injective)
    (f : V → W) {items : GoMap K V} {l : List (K × V)} (h : l.Perm items.items) (m : GoMap L W)
    (k : K) :
  (m.setAll (l.map (fun e => (g e.1, f e.2)))).lookup (g k)
    = ((items.lookup k).map f).or (m.lookup (g k))
  := by
  have hkeys : (l.map (fun e => (g e.1, f e.2))).map Prod.fst = (l.map Prod.fst).map g := by
    rw [List.map_map, List.map_map]
    rfl
  cases hk : items.lookup k with
  | some v =>
    rw [lookup_setAll_of_mem (v := f v)]
    · rfl
    · apply List.mem_map.mpr
      use (k, v), h.mem_iff.mpr (mem_items.mpr hk)
    · rw [hkeys]
      apply List.Nodup.map hg
      apply (h.map Prod.fst).nodup_iff.mpr items.nodup_items_fst
  | none =>
    rw [lookup_setAll_of_notMem]
    · rfl
    · rw [hkeys, List.mem_map_of_injective hg]
      intro hmem
      obtain ⟨⟨k', v⟩, hkv, rfl⟩ := List.mem_map.mp hmem
      rw [mem_items.mp (h.mem_iff.mp hkv)] at hk
      cases hk

/-- Setting entries made from those of a map, in any order of a `range` over it. -/
theorem lookup_setAll_map (f : V → W) {items : GoMap K V} {l : List (K × V)}
    (h : l.Perm items.items) (m : GoMap K W) (k : K) :
  (m.setAll (l.map (fun e => (e.1, f e.2)))).lookup k = ((items.lookup k).map f).or (m.lookup k)
  := lookup_setAll_map_key Function.injective_id f h m k

/-- A loop that looks keys up and stores what it finds. -/
def collect (find : K → Option V) (keys : List K) (m : GoMap K V) : GoMap K V :=
  keys.foldl (fun m k => (find k).elim m (fun v => m.insert k v)) m

theorem lookup_collect (find : K → Option V) (keys : List K) (m : GoMap K V) (k : K) :
  (collect find keys m).lookup k
    = if k ∈ keys then (find k).or (m.lookup k) else m.lookup k
  := by
  induction keys generalizing m with
  | nil => rfl
  | cons k' keys ih =>
    rw [collect, List.foldl_cons, ← collect, ih]
    by_cases hk : k = k'
    · subst hk
      rcases find k with _ | v
      · simp
      · simp
    · have hm : ((find k').elim m (fun v => m.insert k' v)).lookup k = m.lookup k := by
        rcases find k' with _ | v
        · rfl
        · apply (lookup_insert_eq_ite m k k' v).trans (if_neg hk)
      rw [hm]
      simp [hk]

end GoMap

/-- A Go map whose values are slices. -/
abbrev MultiMap (K : Type u) (V : Type v) : Type (max u v) := GoMap K (List V)

namespace MultiMap

variable {K : Type u} {V : Type v} [DecidableEq K]

/-- The values under a key: no values if the key is absent. -/
def values (m : MultiMap K V) (k : K) : List V := (m.lookup k).getD []

/-- Append a value under a key. -/
def add (m : MultiMap K V) (k : K) (x : V) : MultiMap K V := m.insert k (values m k ++ [x])

/-- Replace the values under a key by a single one. -/
def set (m : MultiMap K V) (k : K) (x : V) : MultiMap K V := m.insert k [x]

@[simp]
theorem values_empty (k : K) :
  values (∅ : MultiMap K V) k = []
  := rfl

theorem values_add (m : MultiMap K V) (k k' : K) (x : V) :
  values (add m k' x) k = values m k ++ if k = k' then [x] else []
  := by
  rw [values, add, GoMap.lookup_insert_eq_ite]
  by_cases h : k = k'
  · subst h
    rw [if_pos rfl, if_pos rfl]
    rfl
  · rw [if_neg h, if_neg h, List.append_nil]
    rfl

theorem values_set (m : MultiMap K V) (k k' : K) (x : V) :
  values (set m k' x) k = if k = k' then [x] else values m k
  := by
  rw [values, set, GoMap.lookup_insert_eq_ite]
  by_cases h : k = k'
  · rw [if_pos h, if_pos h]
    rfl
  · rw [if_neg h, if_neg h]
    rfl

/-- The second components of the pairs whose first component is `k`. -/
def pairsAt (k : K) (l : List (K × V)) : List V :=
  (l.filter (fun p => p.1 = k)).map Prod.snd

/-- Append every pair of a list, in order. -/
def addAll (m : MultiMap K V) (l : List (K × V)) : MultiMap K V :=
  l.foldl (fun m p => add m p.1 p.2) m

@[simp]
theorem pairsAt_nil (k : K) :
  pairsAt k ([] : List (K × V)) = []
  := rfl

theorem pairsAt_cons (k : K) (p : K × V) (l : List (K × V)) :
  pairsAt k (p :: l) = (if k = p.1 then [p.2] else []) ++ pairsAt k l
  := by
  by_cases h : k = p.1
  · simp [pairsAt, h]
  · rw [if_neg h, pairsAt, List.filter_cons_of_neg]
    · rfl
    · simpa using Ne.symm h

theorem pairsAt_append (k : K) (l l' : List (K × V)) :
  pairsAt k (l ++ l') = pairsAt k l ++ pairsAt k l'
  := by
  simp [pairsAt]

/-- Appending pairs appends, under each key, the values paired with it. -/
theorem values_addAll (m : MultiMap K V) (l : List (K × V)) (k : K) :
  values (addAll m l) k = values m k ++ pairsAt k l
  := by
  induction l generalizing m with
  | nil => simp [addAll]
  | cons p l ih =>
    rw [addAll, List.foldl_cons, ← addAll, ih, values_add, pairsAt_cons, List.append_assoc]

/-- The pairs of a multimap: each key with each of its values, the keys in the order
`ks`. -/
def pairs (m : MultiMap K V) (ks : List K) : List (K × V) :=
  ks.flatMap (fun k => (values m k).map (Prod.mk k))

private theorem pairsAt_map_mk (k k' : K) (l : List V) :
  pairsAt k (l.map (Prod.mk k')) = if k = k' then l else []
  := by
  induction l with
  | nil => simp
  | cons x l ih =>
    rw [List.map_cons, pairsAt_cons, ih]
    split
    · rfl
    · rfl

private theorem pairsAt_pairs_of_notMem (m : MultiMap K V) {ks : List K} {k : K} (h : k ∉ ks) :
  pairsAt k (pairs m ks) = []
  := by
  induction ks with
  | nil => rfl
  | cons k' ks ih =>
    obtain ⟨hne, hks⟩ := not_or.mp (mt List.mem_cons.mpr h)
    rw [pairs, List.flatMap_cons, pairsAt_append, pairsAt_map_mk, if_neg hne, ← pairs, ih hks]
    rfl

private theorem pairsAt_pairs_of_mem (m : MultiMap K V) {ks : List K} (hnodup : ks.Nodup) {k : K}
    (h : k ∈ ks) :
  pairsAt k (pairs m ks) = values m k
  := by
  induction ks with
  | nil => cases h
  | cons k' ks ih =>
    obtain ⟨hk', hks⟩ := List.nodup_cons.mp hnodup
    rw [pairs, List.flatMap_cons, pairsAt_append, pairsAt_map_mk, ← pairs]
    by_cases heq : k = k'
    · subst heq
      rw [if_pos rfl, pairsAt_pairs_of_notMem m hk', List.append_nil]
    · rw [if_neg heq, List.nil_append]
      apply ih hks
      apply (List.mem_cons.mp h).resolve_left heq

/-- Listing the keys of a multimap in any order lists, under each key, its values. -/
theorem pairsAt_pairs (m : MultiMap K V) {ks : List K} (h : ks.Perm m.keys) (k : K) :
  pairsAt k (pairs m ks) = values m k
  := by
  by_cases hk : k ∈ ks
  · apply pairsAt_pairs_of_mem m (h.nodup_iff.mpr m.keys_nodup) hk
  · have habsent : k ∉ m := fun hmem => hk (h.mem_iff.mpr hmem)
    rw [pairsAt_pairs_of_notMem m hk, values, AList.lookup_eq_none.mpr habsent]
    rfl

end MultiMap
