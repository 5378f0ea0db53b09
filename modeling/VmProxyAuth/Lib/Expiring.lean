import Mathlib

/-!
# Stores with entries that expire

A store gives the entry under a key, if there is one, and a reader does not see entries that
have expired.  A store that has lost nothing but expired entries reads as the store that has
kept everything (`UpTo.read_eq`).  Writing keeps this, dropping an expired entry keeps it, and
so does the passing of time.  A store that may have lost any entry is `Within` the other.
-/

universe u v

namespace Expiring

variable {K : Type u} {V : Type v}

/-- What is read under a key: its entry, unless it has expired. -/
def read (expired : V → Bool) (m : K → Option V) (k : K) : Option V :=
  (m k).filter (fun v => !expired v)

/-- A store after a write, where `w k` is what is written under `k`: nothing, or an entry, or
that there is none. -/
def write (w : K → Option (Option V)) (m : K → Option V) (k : K) : Option V := (w k).getD (m k)

/-- A store without the entry under a key. -/
def drop [DecidableEq K] (m : K → Option V) (k : K) : K → Option V := Function.update m k none

/-- A store has what another has, but for entries that have expired. -/
def UpTo (expired : V → Bool) (m spec : K → Option V) : Prop :=
  ∀ k, m k = spec k ∨ m k = none ∧ ∃ v, spec k = some v ∧ expired v = true

/-- A store has nothing but what another has. -/
def Within (m spec : K → Option V) : Prop := ∀ k, m k = none ∨ m k = spec k

variable {expired : V → Bool} {m spec : K → Option V}

theorem read_eq_none_of_expired {k : K} {v : V} (hk : m k = some v) (hv : expired v = true) :
  read expired m k = none
  := by
  rw [read, hk, Option.filter_some, hv]
  rfl

/-- A store that has lost only expired entries reads as the other. -/
theorem UpTo.read_eq (h : UpTo expired m spec) (k : K) :
  read expired m k = read expired spec k
  := by
  obtain heq | ⟨hnone, v, hv, hexpired⟩ := h k
  · rw [read, read, heq]
  · rw [read_eq_none_of_expired hv hexpired, read, hnone]
    rfl

theorem UpTo.write (h : UpTo expired m spec) (w : K → Option (Option V)) :
  UpTo expired (write w m) (write w spec)
  := by
  intro k
  rw [Expiring.write, Expiring.write]
  rcases w k with _ | entry
  · apply h k
  · apply Or.inl rfl

/-- Dropping an entry that has expired loses nothing that is read. -/
theorem UpTo.drop [DecidableEq K] (h : UpTo expired m spec) {k : K} {v : V} (hk : m k = some v)
    (hv : expired v = true) :
  UpTo expired (drop m k) spec
  := by
  intro k'
  by_cases heq : k' = k
  · subst heq
    right
    use Function.update_self _ _ _, v
    obtain hsame | ⟨hnone, -⟩ := h k'
    · use hsame ▸ hk
    · rw [hnone] at hk
      cases hk
  · rw [Expiring.drop, Function.update_of_ne heq]
    apply h k'

theorem UpTo.mono (h : UpTo expired m spec) {expired' : V → Bool}
    (hmono : ∀ v, expired v = true → expired' v = true) :
  UpTo expired' m spec
  := by
  intro k
  obtain heq | ⟨hnone, v, hv, hexpired⟩ := h k
  · apply Or.inl heq
  · right
    use hnone, v, hv
    apply hmono v hexpired

theorem Within.write (h : Within m spec) (w : K → Option (Option V)) :
  Within (Expiring.write w m) (Expiring.write w spec)
  := by
  intro k
  rw [Expiring.write, Expiring.write]
  rcases w k with _ | entry
  · apply h k
  · apply Or.inr rfl

theorem Within.drop [DecidableEq K] (h : Within m spec) (k : K) :
  Within (Expiring.drop m k) spec
  := by
  intro k'
  by_cases heq : k' = k
  · subst heq
    apply Or.inl
    apply Function.update_self
  · rw [Expiring.drop, Function.update_of_ne heq]
    apply h k'

end Expiring
