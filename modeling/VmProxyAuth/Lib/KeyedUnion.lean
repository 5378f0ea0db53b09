import Mathlib

/-!
# Unions by key

`orElse key a b` is all of `a`, and of `b` the elements whose keys do not occur in `a`.  An
element is in the union of a list of sets, taken from the left, exactly if the first set its key
occurs in has it (`mem_foldl_orElse`).
-/

universe u v

namespace KeyedUnion

variable {α : Type u} {κ : Type v} (key : α → κ)

/-- All of `a`, and of `b` the elements whose keys do not occur in `a`. -/
def orElse (a b : Set α) : Set α := {x | x ∈ a ∨ x ∈ b ∧ ∀ y ∈ a, key y ≠ key x}

/-- The first of the sets that the key of `x` occurs in has `x`. -/
def FirstHas : List (Set α) → α → Prop
  | [], _ => False
  | a :: as, x => x ∈ a ∨ (∀ y ∈ a, key y ≠ key x) ∧ FirstHas as x

variable {key}

/-- A key occurs in a union exactly if it occurs on one of the sides. -/
theorem forall_mem_orElse_ne {a b : Set α} {k : κ} :
  (∀ y ∈ orElse key a b, key y ≠ k) ↔ (∀ y ∈ a, key y ≠ k) ∧ ∀ y ∈ b, key y ≠ k
  := by
  constructor
  · intro h
    have ha : ∀ y ∈ a, key y ≠ k := fun y hy => h y (Or.inl hy)
    use ha
    intro y hy hk
    apply h y _ hk
    right
    use hy
    intro z hz
    rw [hk]
    apply ha z hz
  · rintro ⟨ha, hb⟩ y (hy | ⟨hy, -⟩)
    · apply ha y hy
    · apply hb y hy

/-- Unions by the same key can be grouped in any way. -/
theorem orElse_assoc (a b c : Set α) :
  orElse key (orElse key a b) c = orElse key a (orElse key b c)
  := by
  ext x
  change (x ∈ orElse key a b ∨ x ∈ c ∧ ∀ y ∈ orElse key a b, key y ≠ key x) ↔
    x ∈ a ∨ x ∈ orElse key b c ∧ ∀ y ∈ a, key y ≠ key x
  rw [forall_mem_orElse_ne]
  constructor
  · rintro ((ha | ⟨hb, hne⟩) | ⟨hc, hne, hneb⟩)
    · apply Or.inl ha
    · apply Or.inr ⟨Or.inl hb, hne⟩
    · apply Or.inr ⟨Or.inr ⟨hc, hneb⟩, hne⟩
  · rintro (ha | ⟨hb | ⟨hc, hneb⟩, hne⟩)
    · apply Or.inl (Or.inl ha)
    · apply Or.inl (Or.inr ⟨hb, hne⟩)
    · apply Or.inr ⟨hc, hne, hneb⟩

@[simp]
theorem orElse_empty (a : Set α) :
  orElse key a ∅ = a
  := by
  simp [orElse]

@[simp]
theorem empty_orElse (b : Set α) :
  orElse key ∅ b = b
  := by
  simp [orElse]

/-- An element joined to another one is left out exactly if it has the same key. -/
theorem mem_orElse_singleton_iff {x y : α} (h : y ≠ x) :
  y ∈ orElse key {x} {y} ↔ key x ≠ key y
  := by
  simp [orElse, h]

/-- Two sets joined count as one. -/
theorem firstHas_orElse_cons {a b : Set α} {as : List (Set α)} {x : α} :
  FirstHas key (orElse key a b :: as) x ↔ FirstHas key (a :: b :: as) x
  := by
  rw [FirstHas, FirstHas, FirstHas, forall_mem_orElse_ne]
  constructor
  · rintro ((ha | ⟨hb, hne⟩) | ⟨⟨ha, hb⟩, hrest⟩)
    · apply Or.inl ha
    · apply Or.inr ⟨hne, Or.inl hb⟩
    · apply Or.inr ⟨ha, Or.inr ⟨hb, hrest⟩⟩
  · rintro (ha | ⟨hne, hb | ⟨hb, hrest⟩⟩)
    · apply Or.inl (Or.inl ha)
    · apply Or.inl (Or.inr ⟨hb, hne⟩)
    · apply Or.inr ⟨⟨hne, hb⟩, hrest⟩

/-- An element is in the union of sets taken from the left exactly if the first set its key
occurs in has it. -/
theorem mem_foldl_orElse (as : List (Set α)) (a : Set α) (x : α) :
  x ∈ as.foldl (orElse key) a ↔ FirstHas key (a :: as) x
  := by
  induction as generalizing a with
  | nil => simp [FirstHas]
  | cons b as ih => rw [List.foldl_cons, ih, firstHas_orElse_cons]

/-- An element that is in one of the sets, and in every set its key occurs in, is in the first
of these. -/
theorem firstHas_of_forall {as : List (Set α)} {x : α} (hmem : ∃ a ∈ as, x ∈ a)
    (h : ∀ a ∈ as, x ∈ a ∨ ∀ y ∈ a, key y ≠ key x) :
  FirstHas key as x
  := by
  induction as with
  | nil =>
    obtain ⟨a, ⟨⟩, -⟩ := hmem
  | cons a as ih =>
    obtain hx | hne := h a List.mem_cons_self
    · apply Or.inl hx
    · right
      use hne
      apply ih
      · obtain ⟨b, hb, hx⟩ := hmem
        obtain rfl | hb := List.mem_cons.mp hb
        · apply absurd rfl (hne x hx)
        · use b, hb, hx
      · intro b hb
        apply h b (List.mem_cons_of_mem a hb)

/-- Two elements with one key that are in the union are in one of the sets. -/
theorem exists_mem_of_firstHas {as : List (Set α)} {x y : α} (hx : FirstHas key as x)
    (hy : FirstHas key as y) (hkey : key x = key y) :
  ∃ a ∈ as, x ∈ a ∧ y ∈ a
  := by
  induction as with
  | nil => cases hx
  | cons a as ih =>
    obtain hx | ⟨hxne, hx⟩ := hx
    · obtain hy | ⟨hyne, -⟩ := hy
      · use a, List.mem_cons_self
      · apply absurd hkey (hyne x hx)
    · obtain hy | ⟨-, hy⟩ := hy
      · apply absurd hkey.symm (hxne y hy)
      · obtain ⟨b, hb, hmem⟩ := ih hx hy
        use b, List.mem_cons_of_mem a hb

end KeyedUnion
