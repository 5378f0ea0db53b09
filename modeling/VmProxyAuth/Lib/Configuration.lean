import Mathlib

/-!
# Configurations of servers

A configuration of a replicated system is a list of servers with different identifiers.
A server is added, or its address changed, by `addVoter`; `removeServer` refuses to remove
the last server.  The lemmas say which identifiers the results have.
-/

universe u v

namespace Servers

/-- A server: its identifier and its address. -/
structure Server (ι : Type u) (α : Type v) where
  id : ι
  address : α
  deriving DecidableEq, Repr

/-- A configuration: servers with different identifiers. -/
structure Configuration (ι : Type u) (α : Type v) where
  servers : List (Server ι α)
  nodup : (servers.map Server.id).Nodup
  deriving DecidableEq

namespace Configuration

variable {ι : Type u} {α : Type v}

/-- The identifiers of the servers, in order. -/
def ids (c : Configuration ι α) : List ι := c.servers.map Server.id

/-- The configuration without servers. -/
def empty : Configuration ι α := ⟨[], List.nodup_nil⟩

/-- The configuration with one server. -/
def single (s : Server ι α) : Configuration ι α := ⟨[s], List.nodup_singleton s.id⟩

/-- A configuration has one identifier only exactly if its identifiers are this one. -/
theorem ids_eq_singleton_iff {c : Configuration ι α} {i : ι} :
  c.ids = [i] ↔ ∀ j, j ∈ c.ids ↔ j = i
  := by
  constructor
  · intro h j
    rw [h, List.mem_singleton]
  · intro h
    apply List.perm_singleton.mp
    apply (List.perm_ext_iff_of_nodup c.nodup (List.nodup_singleton i)).mpr
    intro j
    rw [List.mem_singleton]
    apply h j

/-- A configuration within two identifiers has two servers exactly if it has both. -/
theorem length_eq_two_iff {c : Configuration ι α} {i j : ι} (hij : i ≠ j)
    (h : ∀ k ∈ c.ids, k = i ∨ k = j) :
  c.ids.length = 2 ↔ i ∈ c.ids ∧ j ∈ c.ids
  := by
  constructor
  · intro hlength
    obtain ⟨k, l, hkl⟩ := List.length_eq_two.mp hlength
    have hnodup : c.ids.Nodup := c.nodup
    rw [hkl] at h hnodup ⊢
    have hne : k ≠ l := by
      rintro rfl
      simp at hnodup
    rcases h k (by simp) with rfl | rfl <;> rcases h l (by simp) with rfl | rfl <;> simp_all
  · rintro ⟨hi, hj⟩
    have hperm : c.ids.Perm [i, j] := by
      apply (List.perm_ext_iff_of_nodup c.nodup (by simpa using hij)).mpr
      intro k
      constructor
      · intro hk
        simpa using h k hk
      · intro hk
        rcases List.mem_pair.mp hk with rfl | rfl
        · exact hi
        · exact hj
    rw [hperm.length_eq]
    rfl

variable [DecidableEq ι]

private theorem map_id_replace (s : Server ι α) (l : List (Server ι α)) :
  (l.map (fun t => if t.id = s.id then s else t)).map Server.id = l.map Server.id
  := by
  rw [List.map_map]
  apply List.map_congr_left
  intro t _
  rw [Function.comp_apply]
  split
  · rename_i h
    exact h.symm
  · rfl

/-- Add a server, or change the address of the server with its identifier. -/
def addVoter (c : Configuration ι α) (s : Server ι α) : Configuration ι α :=
  if h : s.id ∈ c.ids then
    ⟨c.servers.map (fun t => if t.id = s.id then s else t), by
      rw [map_id_replace]
      exact c.nodup⟩
  else
    ⟨c.servers ++ [s], by
      rw [List.map_append, List.map_singleton, ← List.concat_eq_append]
      exact c.nodup.concat h⟩

theorem mem_ids_addVoter {c : Configuration ι α} {s : Server ι α} {j : ι} :
  j ∈ (c.addVoter s).ids ↔ j = s.id ∨ j ∈ c.ids
  := by
  rw [addVoter]
  split
  · rename_i h
    rw [ids, map_id_replace]
    constructor
    · exact Or.inr
    · rintro (rfl | hj)
      · exact h
      · exact hj
  · rw [ids, List.map_append, List.mem_append, List.map_singleton, List.mem_singleton, or_comm]
    rfl

/-- Remove a server, unless no server would be left. -/
def removeServer (c : Configuration ι α) (i : ι) : Option (Configuration ι α) :=
  if (c.servers.filter (fun s => s.id ≠ i)).isEmpty then none
  else some ⟨c.servers.filter (fun s => s.id ≠ i),
    c.nodup.sublist (List.filter_sublist.map Server.id)⟩

theorem mem_ids_of_removeServer {c c' : Configuration ι α} {i j : ι}
    (h : c.removeServer i = some c') :
  j ∈ c'.ids ↔ j ∈ c.ids ∧ j ≠ i
  := by
  rw [removeServer] at h
  split at h
  · cases h
  · cases h
    simp only [ids, List.mem_map, List.mem_filter, decide_eq_true_eq]
    constructor
    · rintro ⟨s, ⟨hs, hne⟩, rfl⟩
      exact ⟨⟨s, hs, rfl⟩, hne⟩
    · rintro ⟨⟨s, hs, rfl⟩, hne⟩
      exact ⟨s, ⟨hs, hne⟩, rfl⟩

theorem ids_ne_nil_of_removeServer {c c' : Configuration ι α} {i : ι}
    (h : c.removeServer i = some c') :
  c'.ids ≠ []
  := by
  rw [removeServer] at h
  split at h
  · cases h
  · rename_i hservers
    cases h
    rw [ids, Ne, List.map_eq_nil_iff, ← List.isEmpty_iff]
    exact hservers

/-- Removing a server is refused exactly if there is no other. -/
theorem removeServer_eq_none_iff {c : Configuration ι α} {i : ι} :
  c.removeServer i = none ↔ ∀ j ∈ c.ids, j = i
  := by
  rw [removeServer]
  simp [ids, List.isEmpty_iff, List.filter_eq_nil_iff]

/-! ### Addresses -/

/-- The address of the server with an identifier, if there is one. -/
def address (c : Configuration ι α) (i : ι) : Option α :=
  (c.servers.find? (fun s => decide (s.id = i))).map Server.address

theorem address_eq_none_iff {c : Configuration ι α} {i : ι} :
  c.address i = none ↔ i ∉ c.ids
  := by
  simp [address, ids]

private theorem find?_replace (s : Server ι α) (i : ι) (l : List (Server ι α)) :
  (l.map (fun t => if t.id = s.id then s else t)).find? (fun t => decide (t.id = i))
    = (l.find? (fun t => decide (t.id = i))).map (fun t => if t.id = s.id then s else t)
  := by
  have hid : ((fun t => decide (t.id = i)) ∘ fun t : Server ι α => if t.id = s.id then s else t)
      = fun t => decide (t.id = i) := by
    funext t
    rw [Function.comp_apply]
    split
    · rename_i h
      rw [h]
    · rfl
  rw [List.find?_map, hid]

/-- Adding a server gives it its address and leaves the others theirs. -/
theorem address_addVoter (c : Configuration ι α) (s : Server ι α) (i : ι) :
  (c.addVoter s).address i = if i = s.id then some s.address else c.address i
  := by
  rw [addVoter]
  split
  · rename_i hmem
    rw [address, address, find?_replace, Option.map_map]
    rcases hfound : c.servers.find? (fun t => decide (t.id = i)) with _ | t
    · have hnone : c.address i = none := by rw [address, hfound, Option.map_none]
      rw [if_neg]
      · rw [hfound]
        rfl
      · rintro rfl
        apply absurd hmem (address_eq_none_iff.mp hnone)
    · have hid : t.id = i := by simpa using List.find?_some hfound
      rw [hfound, Option.map_some, Function.comp_apply, hid]
      split
      · rfl
      · rfl
  · rename_i hmem
    rw [address, address, List.find?_append]
    by_cases hi : i = s.id
    · subst hi
      have hnone : c.servers.find? (fun t => decide (t.id = s.id)) = none :=
        Option.map_eq_none_iff.mp (address_eq_none_iff.mpr hmem)
      simp [hnone]
    · simp [hi, Ne.symm hi]

/-- Removing a server leaves the others their addresses. -/
theorem address_of_removeServer {c c' : Configuration ι α} {i : ι} (h : c.removeServer i = some c')
    (j : ι) :
  c'.address j = if j = i then none else c.address j
  := by
  rw [removeServer] at h
  split at h
  · cases h
  · cases h
    rw [address, List.find?_filter]
    by_cases hj : j = i
    · rw [if_pos hj, Option.map_eq_none_iff, List.find?_eq_none]
      intro s _
      simp only [decide_eq_true_eq, not_and]
      rintro hne rfl
      apply hne hj
    · rw [if_neg hj, address]
      congr 2
      funext s
      by_cases hs : s.id = j
      · simp [hs, hj]
      · simp [hs]

end Configuration

end Servers
