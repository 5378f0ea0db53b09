import Mathlib

/-!
# Machines and their runs

A machine is a partial step function on states, with one action for each step.
`run` executes a list of actions.  `Always P` says that `P` holds in every state of a
run, `Meets G` that every step the run takes meets the condition `G` in the state it is
taken from.  `Meets.always` derives the first from the second by an invariant, and
`always_iff_meets` says when the two are equivalent.  `Persists I P` says that `P` goes on
holding however actions of the kind `I` follow; `always_persists_iff_meets` is the rule for it.
-/

universe u v

/-- A machine: `step s a` is the state the action `a` takes `s` to, if `a` is enabled
in `s`. -/
structure Machine (σ : Type u) (α : Type v) where
  step : σ → α → Option σ

namespace Machine

variable {σ : Type u} {α : Type v} (M : Machine σ α)

/-- The state the actions take `s` to, if each of them is enabled in its turn. -/
def run : σ → List α → Option σ
  | s, [] => some s
  | s, a :: as => (M.step s a).bind (fun t => run t as)

/-- `P` holds in `s` and in every state the actions reach from it. -/
def Always (P : σ → Prop) : σ → List α → Prop
  | s, [] => P s
  | s, a :: as => P s ∧ ∀ t, M.step s a = some t → Always P t as

/-- Every step the actions take from `s` meets `G` in the state it is taken from. -/
def Meets (G : σ → α → Prop) : σ → List α → Prop
  | _, [] => True
  | s, a :: as => ∀ t, M.step s a = some t → G s a ∧ Meets G t as

@[simp]
theorem run_nil (s : σ) :
  M.run s [] = some s
  := rfl

theorem run_cons {s t : σ} {a : α} {as : List α} :
  M.run s (a :: as) = some t ↔ ∃ u, M.step s a = some u ∧ M.run u as = some t
  := by
  rw [run]
  apply Option.bind_eq_some_iff

/-- One run after another. -/
theorem run_append (s : σ) (as bs : List α) :
  M.run s (as ++ bs) = (M.run s as).bind (fun t => M.run t bs)
  := by
  induction as generalizing s with
  | nil => rfl
  | cons a as ih =>
    rw [List.cons_append, run, run, Option.bind_assoc]
    simp only [ih]

variable {M}

/-- What every step preserves holds in the state a run ends in. -/
theorem invariant_of_run {P : σ → Prop} (hstep : ∀ s a t, P s → M.step s a = some t → P t)
    {s t : σ} {as : List α} (hs : P s) (hrun : M.run s as = some t) :
  P t
  := by
  induction as generalizing s with
  | nil =>
    obtain rfl : s = t := Option.some.inj hrun
    exact hs
  | cons a as ih =>
    obtain ⟨u, hu, hrest⟩ := M.run_cons.mp hrun
    apply ih (hstep s a u hs hu) hrest

/-- `P` holds in the state a run starts from. -/
theorem Always.head {P : σ → Prop} {s : σ} {as : List α} (h : M.Always P s as) :
  P s
  := by
  cases as with
  | nil => apply h
  | cons a as => apply h.1

/-- `P` holds in the state a run ends in. -/
theorem Always.last {P : σ → Prop} {s t : σ} {as : List α} (h : M.Always P s as)
    (hrun : M.run s as = some t) :
  P t
  := by
  induction as generalizing s with
  | nil =>
    obtain rfl : s = t := Option.some.inj hrun
    apply h
  | cons a as ih =>
    obtain ⟨u, hu, hrest⟩ := M.run_cons.mp hrun
    apply ih (h.2 u hu) hrest

/-- What follows from `P` holds along a run along which `P` holds. -/
theorem Always.imp {P Q : σ → Prop} (hPQ : ∀ s, P s → Q s) {s : σ} {as : List α}
    (h : M.Always P s as) :
  M.Always Q s as
  := by
  induction as generalizing s with
  | nil => apply hPQ s h
  | cons a as ih =>
    use hPQ s h.1
    intro t ht
    apply ih (h.2 t ht)

/-- What `P` gives for every step holds of the steps of a run along which `P` holds. -/
theorem Always.meets {P : σ → Prop} {G : σ → α → Prop} (hPG : ∀ s a, P s → G s a) {s : σ}
    {as : List α} (h : M.Always P s as) :
  M.Meets G s as
  := by
  induction as generalizing s with
  | nil => trivial
  | cons a as ih =>
    intro t ht
    use hPG s a h.1
    apply ih (h.2 t ht)

/-- Whether every step of a run meets a decidable condition is decided by running it. -/
instance decidableMeets {G : σ → α → Prop} [∀ s a, Decidable (G s a)] :
    ∀ (s : σ) (as : List α), Decidable (M.Meets G s as)
  | _, [] => isTrue trivial
  | s, a :: as =>
    match h : M.step s a with
    | none => isTrue (fun t ht => by rw [h] at ht; cases ht)
    | some t =>
      have : Decidable (M.Meets G t as) := decidableMeets t as
      decidable_of_iff (G s a ∧ M.Meets G t as)
        ⟨fun hmeets u hu => Option.some.inj (h.symm.trans hu) ▸ hmeets, fun hall => hall t h⟩

/-- What every step meeting `G` preserves holds along every run whose steps meet `G`. -/
theorem Meets.always {P : σ → Prop} {G : σ → α → Prop}
    (hstep : ∀ s a t, P s → G s a → M.step s a = some t → P t)
    {s : σ} {as : List α} (hs : P s) (h : M.Meets G s as) :
  M.Always P s as
  := by
  induction as generalizing s with
  | nil => apply hs
  | cons a as ih =>
    use hs
    intro t ht
    obtain ⟨hg, hrest⟩ := h t ht
    apply ih (hstep s a t hs hg ht) hrest

/-- A condition that follows from another one in the states satisfying an invariant, which the
steps that meet the other one keep. -/
theorem Meets.imp {J : σ → Prop} {G H : σ → α → Prop}
    (hJ : ∀ s a t, J s → G s a → M.step s a = some t → J t)
    (himp : ∀ s a, J s → G s a → H s a) {s : σ} {as : List α} (hs : J s) (h : M.Meets G s as) :
  M.Meets H s as
  := by
  induction as generalizing s with
  | nil => trivial
  | cons a as ih =>
    intro t ht
    obtain ⟨hg, hrest⟩ := h t ht
    use himp s a hs hg
    apply ih (hJ s a t hs hg ht) hrest

/-- Conditions that are equivalent in the states satisfying an invariant are met by the same
runs. -/
theorem meets_congr {J : σ → Prop} {G H : σ → α → Prop}
    (hJ : ∀ s a t, J s → M.step s a = some t → J t) (h : ∀ s a, J s → (G s a ↔ H s a))
    {s : σ} {as : List α} (hs : J s) :
  M.Meets G s as ↔ M.Meets H s as
  := by
  induction as generalizing s with
  | nil => rfl
  | cons a as ih =>
    apply forall_congr'
    intro t
    apply forall_congr'
    intro ht
    rw [h s a hs, ih (hJ s a t hs ht)]

/-- Let a step end in a state with `J` if it starts in one and ends in a state with `P`.  If
then, on the states with `J`, a step from a state with `P` ends in a state with `P` exactly when
it meets `G`, then `P` holds along a run exactly when all its steps meet `G`. -/
theorem always_iff_meets_of_next {J P : σ → Prop} {G : σ → α → Prop}
    (hJ : ∀ s a t, J s → P t → M.step s a = some t → J t)
    (hstep : ∀ s a t, J s → P s → M.step s a = some t → (P t ↔ G s a))
    {s : σ} {as : List α} (hs : J s) (hP : P s) :
  M.Always P s as ↔ M.Meets G s as
  := by
  induction as generalizing s with
  | nil =>
    constructor
    · intro _
      trivial
    · intro _
      apply hP
  | cons a as ih =>
    constructor
    · rintro ⟨-, hnext⟩ t ht
      have hPt := (hnext t ht).head
      use (hstep s a t hs hP ht).mp hPt
      apply (ih (hJ s a t hs hPt ht) hPt).mp (hnext t ht)
    · intro h
      use hP
      intro t ht
      obtain ⟨hg, hrest⟩ := h t ht
      have hPt := (hstep s a t hs hP ht).mpr hg
      apply (ih (hJ s a t hs hPt ht) hPt).mpr hrest

/-- If, on the states satisfying an invariant `J`, a step from a state with `P` ends in a
state with `P` exactly when it meets `G`, then `P` holds along a run exactly when all its
steps meet `G`. -/
theorem always_iff_meets {J P : σ → Prop} {G : σ → α → Prop}
    (hJ : ∀ s a t, J s → M.step s a = some t → J t)
    (hstep : ∀ s a t, J s → P s → M.step s a = some t → (P t ↔ G s a))
    {s : σ} {as : List α} (hs : J s) (hP : P s) :
  M.Always P s as ↔ M.Meets G s as
  := always_iff_meets_of_next (fun s a t hs _ ht => hJ s a t hs ht) hstep hs hP

/-! ### Properties that persist -/

variable (M) in
/-- `P` holds in `s` and in every state actions of the kind `I` reach from it. -/
def Persists (I : α → Prop) (P : σ → Prop) (s : σ) : Prop :=
  ∀ as, (∀ a ∈ as, I a) → M.Always P s as

theorem Persists.holds {I : α → Prop} {P : σ → Prop} {s : σ} (h : M.Persists I P s) :
  P s
  := h [] (List.forall_mem_nil I)

theorem Persists.step {I : α → Prop} {P : σ → Prop} {s t : σ} {a : α} (h : M.Persists I P s)
    (ha : I a) (ht : M.step s a = some t) :
  M.Persists I P t
  := by
  intro as has
  have hall : ∀ b ∈ a :: as, I b := List.forall_mem_cons.mpr ⟨ha, has⟩
  apply (h (a :: as) hall).2 t ht

/-- What an invariant of the actions of the kind `I` implies persists. -/
theorem persists_of_invariant {I : α → Prop} {P K : σ → Prop} (hP : ∀ s, K s → P s)
    (hK : ∀ s a t, K s → I a → M.step s a = some t → K t) {s : σ} (hs : K s) :
  M.Persists I P s
  := by
  intro as
  induction as generalizing s with
  | nil =>
    intro _
    apply hP s hs
  | cons a as ih =>
    intro has
    use hP s hs
    intro t ht
    apply ih (hK s a t hs (has a List.mem_cons_self) ht)
    intro b hb
    apply has b (List.mem_cons_of_mem a hb)

/-- Let `K` imply `P` and be kept by the steps that meet `G`, as those of the kind `I` do, and
let a step meet `G` if `P` persists after it.  Then `P` persists along a run exactly when all
its steps meet `G`. -/
theorem always_persists_iff_meets {I : α → Prop} {P K : σ → Prop} {G : σ → α → Prop}
    (hP : ∀ s, K s → P s) (hK : ∀ s a t, K s → G s a → M.step s a = some t → K t)
    (hI : ∀ s a, I a → G s a)
    (hG : ∀ s a t, K s → M.step s a = some t → M.Persists I P t → G s a)
    {s : σ} {as : List α} (hs : K s) :
  M.Always (M.Persists I P) s as ↔ M.Meets G s as
  := by
  have hpersists : ∀ {t}, K t → M.Persists I P t :=
    persists_of_invariant hP (fun s a t hs ha => hK s a t hs (hI s a ha))
  apply always_iff_meets_of_next (J := K)
  · intro s a t hs ht hstep
    apply hK s a t hs (hG s a t hs hstep ht) hstep
  · intro s a t hs _ hstep
    constructor
    · intro ht
      apply hG s a t hs hstep ht
    · intro hg
      apply hpersists (hK s a t hs hg hstep)
  · apply hs
  · apply hpersists hs

end Machine
