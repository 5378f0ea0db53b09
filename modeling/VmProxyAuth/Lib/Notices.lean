import VmProxyAuth.Lib.Board

/-!
# What watchers get

A watcher of a board is settled if, for every key of which it is to get no more events, the last
one it got is the last one posted.  The watchers stay settled exactly if an event that is sent as
the last one of its key is the last one posted for the key (`settled_step_iff`).  The events of
each key keep coming in the order they were posted exactly if none is sent before an earlier one
of its key (`ordered_step_iff`).
-/

universe u v

namespace Board

variable {K : Type u} {E : Type v}

section

variable {capacity : ℕ} {s t : Board K E}

/-! ### Settled watchers -/

section Settled

variable [DecidableEq K]

/-- The last one of some events that has the key `k`. -/
def lastOf (b : Board K E) (k : K) (ids : List ℕ) : Option ℕ :=
  (ids.filter (fun i => decide (b.keyOf i = some k))).getLast?

/-- If no more events of a key are to come, the last one the watcher got is the last one
posted. -/
def Settled (b : Board K E) (w : ℕ) (x : Watcher K) : Prop :=
  ∀ k l, b.lastOf k x.delivered = some l →
    (∀ j, b.due w x j = true → b.keyOf j ≠ some k) → b.IsLatest l

/-- The watchers that have dropped no event are settled. -/
def AllSettled (b : Board K E) : Prop :=
  ∀ w x, b.watchers.lookup w = some x → x.dropped = false → b.Settled w x

/-- If an event is sent, to a watcher that has dropped none and has room for it, as the last
one of its key that is to come, then it is the last one posted for the key. -/
def SendsLatestLast (capacity : ℕ) (b : Board K E) : Action K → Prop
  | .send i w => ∀ x ∈ b.watchers.lookup w, x.dropped = false → x.buffer.length < capacity →
      (∀ j ∈ b.pending.keys, b.due w x j = true → b.keyOf j = b.keyOf i → j = i) → b.IsLatest i
  | _ => True

theorem lastOf_append_singleton (b : Board K E) (k : K) (ids : List ℕ) (i : ℕ) :
  b.lastOf k (ids ++ [i]) = if b.keyOf i = some k then some i else b.lastOf k ids
  := by
  rw [lastOf, lastOf, List.filter_append]
  split
  · simp [*]
  · simp [*]

theorem keyOf_of_lastOf {b : Board K E} {k : K} {ids : List ℕ} {l : ℕ}
    (h : b.lastOf k ids = some l) :
  b.keyOf l = some k
  := by
  have hmem := List.mem_of_getLast? h
  apply of_decide_eq_true (List.mem_filter.mp hmem).2

theorem lastOf_congr {b b' : Board K E} {k : K} {ids : List ℕ}
    (h : ∀ i ∈ ids, b'.keyOf i = b.keyOf i) :
  b'.lastOf k ids = b.lastOf k ids
  := by
  rw [lastOf, lastOf]
  congr 1
  apply List.filter_congr
  intro i hi
  rw [h i hi]

theorem lastOf_eq (h : t.posted = s.posted) (k : K) (ids : List ℕ) :
  t.lastOf k ids = s.lastOf k ids
  := by
  apply lastOf_congr
  intro i _
  rw [keyOf_congr h]

/-- If the watchers stay settled, an event sent as the last one of its key is the last one posted
for it. -/
theorem sendsLatestLast_of_settled {a : Action K} (hs : s.Sound) (ht : t.AllSettled)
    (h : s.step capacity a = some t) :
  s.SendsLatestLast capacity a
  := by
  have hposted := posted_step h
  cases a with
  | send i w =>
    intro x hx hkeeps hroom honly
    obtain ⟨hlookup, hi, hdue⟩ := due_sent hs h hx
    obtain ⟨-, ⟨-, hdelivered, hdropped⟩ | ⟨hfull, -⟩⟩ := accept_cases capacity i x
    · obtain ⟨k, hk, -⟩ := (Option.any_eq_true _ _).mp (wants_of_due hs hx hi)
      apply (isLatest_congr hposted i).mp
      apply ht w _ hlookup (hdropped.trans hkeeps) k
      · rw [lastOf_eq hposted, hdelivered, lastOf_append_singleton, if_pos hk]
      · intro j hj hjk
        rw [hdue, Bool.and_eq_true, decide_eq_true_iff] at hj
        rw [keyOf_congr hposted] at hjk
        apply hj.2 (honly j (mem_keys_of_due hj.1) hj.1 (hjk.trans hk.symm))
    · exact absurd hroom hfull
  | _ => trivial

/-- If an event sent as the last one of its key is the last one posted for it, the watchers stay
settled. -/
theorem settled_step {a : Action K} (hs : s.Sound) (hsettled : s.AllSettled)
    (hsends : s.SendsLatestLast capacity a) (h : s.step capacity a = some t) :
  t.AllSettled
  := by
  have hposted := posted_step h
  intro w x' hx' hkeeps k l hl hnone
  apply (isLatest_congr hposted l).mpr
  rw [lastOf_eq hposted] at hl
  rw [keyOf_congr hposted] at hnone
  cases move_step hs h hx' with
  | same x hx _ hdelivered hdropped hdue =>
    rw [hdelivered] at hl
    apply hsettled w x hx (hdropped.symm.trans hkeeps) k l hl
    intro j hj
    apply hnone j ((hdue j).trans hj)
  | sent i x ha hx _ hi hroom hdelivered hdropped hdue =>
    subst ha
    have hstill : ∀ j, j ≠ i → s.due w x j = true → s.keyOf j ≠ some k := by
      intro j hne hj
      apply hnone j
      rw [hdue, hj]
      apply decide_eq_true hne
    rw [hdelivered, lastOf_append_singleton] at hl
    split at hl
    · rename_i hk
      obtain rfl := Option.some.inj hl
      apply hsends x hx (hdropped.symm.trans hkeeps) hroom
      intro j _ hj hjk
      by_contra hne
      apply hstill j hne hj (hjk.trans hk)
    · rename_i hk
      apply hsettled w x hx (hdropped.symm.trans hkeeps) k l hl
      intro j hj hjk
      apply hstill j _ hj hjk
      rintro rfl
      apply hk hjk
  | lost i x _ hx _ _ _ hdropped =>
    rw [hdropped] at hkeeps
    cases hkeeps
  | joined _ hdelivered =>
    rw [hdelivered] at hl
    cases hl

/-- The watchers stay settled exactly if an event sent as the last one of its key is the last
one posted for it. -/
theorem settled_step_iff {a : Action K} (hs : s.Sound) (hsettled : s.AllSettled)
    (h : s.step capacity a = some t) :
  t.AllSettled ↔ s.SendsLatestLast capacity a
  := by
  constructor
  · intro ht
    apply sendsLatestLast_of_settled hs ht h
  · intro hsends
    apply settled_step hs hsettled hsends h

instance decidableIsLatest (b : Board K E) (i : ℕ) : Decidable (b.IsLatest i) :=
  inferInstanceAs (Decidable (_ ∧ _))

instance decidableSendsLatestLast (capacity : ℕ) (b : Board K E) :
    ∀ a, Decidable (b.SendsLatestLast capacity a)
  | .send _ _ => inferInstanceAs (Decidable (∀ _ ∈ _, _))
  | .start _ _ => isTrue trivial
  | .finish _ => isTrue trivial
  | .watch _ _ => isTrue trivial
  | .cancel _ => isTrue trivial
  | .receive _ => isTrue trivial

end Settled

/-! ### Events in order -/

/-- The events of each key came in the order they were posted, and those to come are later
than those that came. -/
structure Ordered (b : Board K E) (w : ℕ) (x : Watcher K) : Prop where
  delivered : x.delivered.Pairwise (fun i j => b.keyOf i = b.keyOf j → i < j)
  due : ∀ i ∈ x.delivered, ∀ j, b.due w x j = true → b.keyOf i = b.keyOf j → i < j

/-- All watchers get the events of each key in order. -/
def AllOrdered (b : Board K E) : Prop :=
  ∀ w x, b.watchers.lookup w = some x → b.Ordered w x

/-- No event is sent, to a watcher that has room for it, before an earlier one of its key. -/
def SendsInOrder (capacity : ℕ) (b : Board K E) : Action K → Prop
  | .send i w => ∀ x ∈ b.watchers.lookup w, x.buffer.length < capacity →
      ∀ j ∈ b.pending.keys, b.due w x j = true → b.keyOf j = b.keyOf i → i ≤ j
  | _ => True

instance decidableSendsInOrder [DecidableEq K] (capacity : ℕ) (b : Board K E) :
    ∀ a, Decidable (b.SendsInOrder capacity a)
  | .send _ _ => inferInstanceAs (Decidable (∀ _ ∈ _, _))
  | .start _ _ => isTrue trivial
  | .finish _ => isTrue trivial
  | .watch _ _ => isTrue trivial
  | .cancel _ => isTrue trivial
  | .receive _ => isTrue trivial

/-- A watcher that got nothing and is to get no more than before stays in order. -/
theorem Ordered.mono {w : ℕ} {x x' : Watcher K} (h : s.Ordered w x) (hkey : t.keyOf = s.keyOf)
    (hdelivered : x'.delivered = x.delivered)
    (hdue : ∀ j, t.due w x' j = true → s.due w x j = true) :
  t.Ordered w x'
  := by
  constructor
  · rw [hkey, hdelivered]
    apply h.delivered
  · intro i hi j hj
    rw [hdelivered] at hi
    rw [hkey]
    apply h.due i hi j (hdue j hj)

/-- If the events of each key keep coming in order, none is sent before an earlier one of its
key. -/
theorem sendsInOrder_of_ordered {a : Action K} (hs : s.Sound) (ht : t.AllOrdered)
    (h : s.step capacity a = some t) :
  s.SendsInOrder capacity a
  := by
  cases a with
  | send i w =>
    intro x hx hroom j _ hj hij
    obtain ⟨hlookup, -, hdue⟩ := due_sent hs h hx
    obtain ⟨-, ⟨-, hdelivered, -⟩ | ⟨hfull, -⟩⟩ := accept_cases capacity i x
    · rcases eq_or_ne j i with rfl | hne
      · rfl
      · apply le_of_lt
        apply (ht w _ hlookup).due i
        · rw [hdelivered]
          apply List.mem_append_right _ (List.mem_singleton_self i)
        · rw [hdue, hj]
          apply decide_eq_true hne
        · rw [keyOf_congr (posted_step h), hij]
    · exact absurd hroom hfull
  | _ => trivial

/-- If no event is sent before an earlier one of its key, the events of each key keep coming in
order. -/
theorem ordered_step {a : Action K} (hs : s.Sound) (hordered : s.AllOrdered)
    (hsends : s.SendsInOrder capacity a) (h : s.step capacity a = some t) :
  t.AllOrdered
  := by
  have hkey := keyOf_congr (posted_step h)
  intro w x' hx'
  cases move_step hs h hx' with
  | same x hx _ hdelivered _ hdue =>
    apply (hordered w x hx).mono hkey hdelivered
    intro j hj
    apply (hdue j).symm.trans hj
  | sent i₀ x ha hx _ hi₀ hroom hdelivered _ hdue =>
    subst ha
    obtain ⟨hpairwise, hlater⟩ := hordered w x hx
    constructor
    · rw [hkey, hdelivered, List.pairwise_append]
      use hpairwise, List.pairwise_singleton _ _
      intro i hi j hj
      obtain rfl := List.mem_singleton.mp hj
      apply hlater i hi j hi₀
    · intro i hi j hj hij
      rw [hkey] at hij
      rw [hdue, Bool.and_eq_true, decide_eq_true_iff] at hj
      rw [hdelivered, List.mem_append, List.mem_singleton] at hi
      rcases hi with hi | rfl
      · apply hlater i hi j hj.1 hij
      · have hle := hsends x hx hroom j (mem_keys_of_due hj.1) hj.1 hij.symm
        apply lt_of_le_of_ne hle (Ne.symm hj.2)
  | lost i₀ x _ hx _ _ hdelivered _ hdue =>
    apply (hordered w x hx).mono hkey hdelivered
    intro j hj
    rw [hdue, Bool.and_eq_true] at hj
    apply hj.1
  | joined _ hdelivered =>
    constructor
    · rw [hdelivered]
      apply List.Pairwise.nil
    · intro i hi
      rw [hdelivered] at hi
      cases hi

/-- The events of each key keep coming in order exactly if none is sent before an earlier one of
its key. -/
theorem ordered_step_iff {a : Action K} (hs : s.Sound) (hordered : s.AllOrdered)
    (h : s.step capacity a = some t) :
  t.AllOrdered ↔ s.SendsInOrder capacity a
  := by
  constructor
  · intro ht
    apply sendsInOrder_of_ordered hs ht h
  · intro hsends
    apply ordered_step hs hordered hsends h

end

/-! ### Posting -/

section Post

variable {b : Board K E} {k : K} {e : E}

/-- Posting an event leaves the watchers settled: those that got an event of its key are to get
this one too. -/
theorem settled_post [DecidableEq K] (hb : b.Sound) (h : b.AllSettled) (k : K) (e : E) :
  (b.post k e).AllSettled
  := by
  intro w x hx hkeeps k' l hl hnone
  rw [lastOf_congr (fun i hi => keyOf_post_of_lt (delivered_lt hb hx hi))] at hl
  have hl' := keyOf_of_lastOf hl
  have hlatest : b.IsLatest l := by
    apply h w x hx hkeeps k' l hl
    intro j hj
    have hlt := due_lt hb hj
    rw [← keyOf_post_of_lt (k := k) (e := e) hlt]
    apply hnone j
    rw [due_post_of_lt hlt, hj]
  apply isLatest_post_of_ne hlatest
  intro hk
  have hmem : l ∈ x.delivered := (List.mem_filter.mp (List.mem_of_getLast? hl)).1
  have hwants := hb.delivered w x hx l hmem
  rw [hk] at hwants
  apply hnone b.posted.length
  · rw [due_post_length]
    apply hwants
  · rw [keyOf_post_length, ← hk, hl']

/-- Posting an event leaves the events of each key in order. -/
theorem ordered_post (hb : b.Sound) (h : b.AllOrdered) (k : K) (e : E) :
  (b.post k e).AllOrdered
  := by
  intro w x hx
  obtain ⟨hpairwise, hlater⟩ := h w x hx
  have hlt : ∀ i ∈ x.delivered, i < b.posted.length := fun i hi => delivered_lt hb hx hi
  constructor
  · apply hpairwise.imp_of_mem
    intro i j hi hj hij hkey
    rw [keyOf_post_of_lt (hlt i hi), keyOf_post_of_lt (hlt j hj)] at hkey
    apply hij hkey
  · intro i hi j hj hkey
    by_cases hold : j < b.posted.length
    · rw [due_post_of_lt hold] at hj
      rw [keyOf_post_of_lt (hlt i hi), keyOf_post_of_lt hold] at hkey
      apply hlater i hi j hj hkey
    · have hlti := hlt i hi
      omega

/-- `R` holds of the last event of every key. -/
def Reflects (b : Board K E) (R : K → E → Prop) : Prop :=
  ∀ i k e, b.IsLatest i → b.posted[i]? = some (k, e) → R k e

theorem reflects_congr {s t : Board K E} (h : t.posted = s.posted) {R : K → E → Prop}
    (hs : s.Reflects R) :
  t.Reflects R
  := by
  intro i k e hi he
  rw [h] at he
  apply hs i k e ((isLatest_congr h i).mp hi) he

/-- What holds of the event posted, and of the events of the other keys, holds of the last
events. -/
theorem reflects_post {R R' : K → E → Prop} (hb : b.Reflects R)
    (hothers : ∀ k' e', k' ≠ k → R k' e' → R' k' e') (hnew : R' k e) :
  (b.post k e).Reflects R'
  := by
  intro i k' e' hi he
  rw [posted_post] at he
  by_cases hlast : i = b.posted.length
  · subst hlast
    rw [List.getElem?_concat_length] at he
    cases he
    apply hnew
  · obtain ⟨hlatest, hk⟩ := isLatest_of_post hi hlast
    rw [List.getElem?_append_left hlatest.1] at he
    apply hothers k' e' _ (hb i k' e' hlatest he)
    rintro rfl
    apply hk
    rw [keyOf, he]
    rfl

end Post

/-! ### Following a store -/

/-- A sound board that `R` holds of the last events of. -/
structure Follows (b : Board K E) (R : K → E → Prop) : Prop where
  sound : b.Sound
  reflects : b.Reflects R

theorem follows_empty (R : K → E → Prop) :
  (empty : Board K E).Follows R
  := by
  use sound_empty
  intro i k e hi
  cases hi.1

theorem follows_step {capacity : ℕ} {s t : Board K E} {a : Action K} {R : K → E → Prop}
    (hs : s.Follows R) (h : s.step capacity a = some t) :
  t.Follows R
  := by
  use sound_step hs.sound h
  apply reflects_congr (posted_step h) hs.reflects

theorem follows_post {b : Board K E} {R R' : K → E → Prop} {k : K} {e : E} (hb : b.Follows R)
    (hothers : ∀ k' e', k' ≠ k → R k' e' → R' k' e') (hnew : R' k e) :
  (b.post k e).Follows R'
  := by
  use sound_post hb.sound k e
  apply reflects_post hb.reflects hothers hnew

variable [DecidableEq K]

/-- The last event of a key that came to a watcher. -/
def lastEvent (b : Board K E) (k : K) (x : Watcher K) : Option E :=
  ((b.lastOf k x.delivered).bind (fun i => b.posted[i]?)).map Prod.snd

/-- `R` holds of the last event of a key that came to a watcher, once the watcher is to get no
more of the key and if it has dropped none. -/
def Converged (b : Board K E) (R : K → E → Prop) : Prop :=
  ∀ w x, b.watchers.lookup w = some x → x.dropped = false →
    ∀ k, (∀ i, b.due w x i = true → b.keyOf i ≠ some k) → ∀ e, b.lastEvent k x = some e → R k e

theorem converged_of_settled {b : Board K E} {R : K → E → Prop} (hb : b.Follows R)
    (hsettled : b.AllSettled) :
  b.Converged R
  := by
  intro w x hx hkeeps k hnone e he
  obtain ⟨⟨k', e'⟩, hmem, rfl⟩ := Option.map_eq_some_iff.mp he
  obtain ⟨i, hi, hposted⟩ := Option.bind_eq_some_iff.mp hmem
  have hk : k' = k := by
    have hkey := keyOf_of_lastOf hi
    rw [keyOf, hposted] at hkey
    apply Option.some.inj hkey
  subst hk
  apply hb.reflects i _ _ (hsettled w x hx hkeeps _ i hi hnone) hposted

end Board
