import VmProxyAuth.Lib.GoMap

/-!
# Boards

Events are posted on a board, and delivered to the watchers that want them at some later point.
An event is named by its position among those posted.  Its delivery starts with a list of the
watchers that want it, sends it to one after the other, and finishes; several deliveries go on
at once, but watchers come and go only when none does.  `move_step` says what a step does to a
watcher.
-/

universe u v

/-- A watcher: the keys it wants, the events sent to it and not received yet, those received,
and whether an event was dropped because too many were not received yet. -/
structure Watcher (K : Type u) where
  wants : K → Bool
  buffer : List ℕ
  received : List ℕ
  dropped : Bool

namespace Watcher

variable {K : Type u}

/-- The events sent to a watcher, in order. -/
def delivered (x : Watcher K) : List ℕ := x.received ++ x.buffer

/-- A watcher that an event is sent to. -/
def accept (capacity i : ℕ) (x : Watcher K) : Watcher K :=
  if x.buffer.length < capacity then { x with buffer := x.buffer ++ [i] }
  else { x with dropped := true }

end Watcher

/-- The events posted, each with its key; the events whose delivery has not finished, with the
watchers they are still to be sent to if it has started; and the watchers. -/
structure Board (K : Type u) (E : Type v) where
  posted : List (K × E)
  pending : GoMap ℕ (Option (List ℕ))
  watchers : GoMap ℕ (Watcher K)

namespace Board

variable {K : Type u} {E : Type v}

/-- What happens to a board: the delivery of an event starts, with the watchers in some order;
the event is sent to a watcher; the delivery finishes; a watcher comes or goes; or a watcher
receives an event. -/
inductive Action (K : Type u) where
  | start (i : ℕ) (targets : List ℕ)
  | send (i w : ℕ)
  | finish (i : ℕ)
  | watch (w : ℕ) (wants : K → Bool)
  | cancel (w : ℕ)
  | receive (w : ℕ)

/-- A board without events and watchers. -/
def empty : Board K E := ⟨[], ∅, ∅⟩

/-- The key of an event. -/
def keyOf (b : Board K E) (i : ℕ) : Option K := b.posted[i]?.map Prod.fst

/-- Post an event. -/
def post (b : Board K E) (k : K) (e : E) : Board K E :=
  { b with
    posted := b.posted ++ [(k, e)]
    pending := b.pending.insert b.posted.length none }

/-- The watchers that want a key. -/
def wanting (b : Board K E) (k : K) : List ℕ :=
  (b.watchers.items.filter (fun e => e.2.wants k)).map Prod.fst

/-- Whether no delivery is going on. -/
def idle (b : Board K E) : Bool := b.pending.items.all (fun e => e.2.isNone)

/-- One step of a board whose watchers hold `capacity` events. -/
def step (capacity : ℕ) (b : Board K E) : Action K → Option (Board K E)
  | .start i targets =>
    match b.pending.lookup i, b.keyOf i with
    | some none, some k =>
      if targets.Perm (b.wanting k) then
        some { b with pending := b.pending.insert i (some targets) }
      else none
    | _, _ => none
  | .send i w =>
    match b.pending.lookup i, b.watchers.lookup w with
    | some (some targets), some x =>
      if w ∈ targets then
        some { b with
               pending := b.pending.insert i (some (targets.erase w))
               watchers := b.watchers.insert w (x.accept capacity i) }
      else none
    | _, _ => none
  | .finish i =>
    if b.pending.lookup i = some (some []) then some { b with pending := b.pending.erase i }
    else none
  | .watch w wants =>
    if b.idle = true ∧ b.watchers.lookup w = none then
      some { b with watchers := b.watchers.insert w ⟨wants, [], [], false⟩ }
    else none
  | .cancel w =>
    if b.idle = true then some { b with watchers := b.watchers.erase w } else none
  | .receive w =>
    match b.watchers.lookup w with
    | some ⟨wants, i :: buffer, received, dropped⟩ =>
      some { b with watchers := b.watchers.insert w ⟨wants, buffer, received ++ [i], dropped⟩ }
    | _ => none

/-! ### Events to come -/

/-- Whether an event is still to be sent to a watcher. -/
def due (b : Board K E) (w : ℕ) (x : Watcher K) (i : ℕ) : Bool :=
  match b.pending.lookup i with
  | some none => (b.keyOf i).any x.wants
  | some (some targets) => decide (w ∈ targets)
  | none => false

/-- An event is the last one posted for its key. -/
def IsLatest (b : Board K E) (i : ℕ) : Prop :=
  i < b.posted.length ∧ ∀ j < b.posted.length, b.keyOf j = b.keyOf i → j ≤ i

/-- The events pending are events posted; the watchers an event is to be sent to are different,
and want it; and so did those it was sent to. -/
structure Sound (b : Board K E) : Prop where
  pending_lt : ∀ i state, b.pending.lookup i = some state → i < b.posted.length
  targets : ∀ i targets, b.pending.lookup i = some (some targets) → targets.Nodup ∧
    ∀ w ∈ targets, ∃ x, b.watchers.lookup w = some x ∧ (b.keyOf i).any x.wants = true
  delivered : ∀ w x, b.watchers.lookup w = some x →
    ∀ i ∈ x.delivered, (b.keyOf i).any x.wants = true

theorem keyOf_eq_some {b : Board K E} {i : ℕ} {k : K} (h : b.keyOf i = some k) :
  i < b.posted.length
  := by
  obtain ⟨e, he, -⟩ := Option.map_eq_some_iff.mp h
  apply (List.getElem?_eq_some_iff.mp he).1

theorem lookup_of_idle {b : Board K E} (h : b.idle = true) {i : ℕ} {state : Option (List ℕ)}
    (hi : b.pending.lookup i = some state) :
  state = none
  := by
  have hall := List.all_eq_true.mp h (i, state) (GoMap.mem_items.mpr hi)
  simpa using hall

theorem mem_wanting {b : Board K E} {k : K} {w : ℕ} {x : Watcher K}
    (hx : b.watchers.lookup w = some x) :
  w ∈ b.wanting k ↔ x.wants k = true
  := by
  rw [wanting, List.mem_map]
  constructor
  · rintro ⟨⟨w', x'⟩, hmem, rfl⟩
    obtain ⟨hitem, hwants⟩ := List.mem_filter.mp hmem
    obtain rfl := Option.some.inj (hx.symm.trans (GoMap.mem_items.mp hitem))
    apply hwants
  · intro hwants
    use (w, x)
    rw [List.mem_filter]
    use ⟨GoMap.mem_items.mpr hx, hwants⟩

theorem exists_of_mem_wanting {b : Board K E} {k : K} {w : ℕ} (h : w ∈ b.wanting k) :
  ∃ x, b.watchers.lookup w = some x ∧ x.wants k = true
  := by
  obtain ⟨⟨w', x⟩, hmem, rfl⟩ := List.mem_map.mp h
  obtain ⟨hitem, hwants⟩ := List.mem_filter.mp hmem
  use x, GoMap.mem_items.mp hitem, hwants

theorem nodup_wanting (b : Board K E) (k : K) :
  (b.wanting k).Nodup
  := by
  apply List.Sublist.nodup _ b.watchers.nodup_items_fst
  apply List.Sublist.map
  apply List.filter_sublist

/-- A watcher that an event is sent to has it if there is room, and drops it otherwise. -/
theorem accept_cases (capacity i : ℕ) (x : Watcher K) :
  (x.accept capacity i).wants = x.wants ∧
    (x.buffer.length < capacity ∧ (x.accept capacity i).delivered = x.delivered ++ [i] ∧
        (x.accept capacity i).dropped = x.dropped ∨
      ¬ x.buffer.length < capacity ∧ (x.accept capacity i).delivered = x.delivered ∧
        (x.accept capacity i).dropped = true)
  := by
  rw [Watcher.accept]
  split
  · rename_i hroom
    use rfl
    left
    rw [Watcher.delivered, Watcher.delivered, List.append_assoc]
    use hroom
  · rename_i hfull
    use rfl
    right
    use hfull
    use rfl

/-! ### What a step does to a watcher -/

/-- What a step does to a watcher `x'` registered after it: nothing; an event is sent to it;
an event is dropped; or it has just come. -/
inductive Move (capacity : ℕ) (s t : Board K E) (a : Action K) (w : ℕ) (x' : Watcher K) :
    Prop where
  | same (x : Watcher K) (hx : s.watchers.lookup w = some x) (hwants : x'.wants = x.wants)
      (hdelivered : x'.delivered = x.delivered) (hdropped : x'.dropped = x.dropped)
      (hdue : ∀ j, t.due w x' j = s.due w x j)
  | sent (i : ℕ) (x : Watcher K) (ha : a = .send i w) (hx : s.watchers.lookup w = some x)
      (hwants : x'.wants = x.wants) (hi : s.due w x i = true)
      (hroom : x.buffer.length < capacity) (hdelivered : x'.delivered = x.delivered ++ [i])
      (hdropped : x'.dropped = x.dropped)
      (hdue : ∀ j, t.due w x' j = (s.due w x j && decide (j ≠ i)))
  | lost (i : ℕ) (x : Watcher K) (ha : a = .send i w) (hx : s.watchers.lookup w = some x)
      (hwants : x'.wants = x.wants) (hfull : ¬ x.buffer.length < capacity)
      (hdelivered : x'.delivered = x.delivered) (hdropped : x'.dropped = true)
      (hdue : ∀ j, t.due w x' j = (s.due w x j && decide (j ≠ i)))
  | joined (ha : a = .watch w x'.wants) (hdelivered : x'.delivered = [])
      (hdue : ∀ j, t.due w x' j = true →
        s.pending.lookup j = some none ∧ (s.keyOf j).any x'.wants = true)
      (hdue' : ∀ j, s.pending.lookup j = some none → (s.keyOf j).any x'.wants = true →
        t.due w x' j = true)

section

variable {capacity : ℕ} {s t : Board K E}

theorem start_eq_some {i : ℕ} {targets : List ℕ}
    (h : s.step capacity (.start i targets) = some t) :
  ∃ k, s.pending.lookup i = some none ∧ s.keyOf i = some k ∧ targets.Perm (s.wanting k) ∧
    t = { s with pending := s.pending.insert i (some targets) }
  := by
  rw [step] at h
  split at h
  · rename_i k hi hk
    obtain ⟨hperm, ⟨⟩⟩ := Option.ite_none_right_eq_some.mp h
    use k, hi, hk, hperm
  · cases h

theorem send_eq_some {i w : ℕ} (h : s.step capacity (.send i w) = some t) :
  ∃ targets x, s.pending.lookup i = some (some targets) ∧ s.watchers.lookup w = some x ∧
    w ∈ targets ∧
    t = { s with
          pending := s.pending.insert i (some (targets.erase w))
          watchers := s.watchers.insert w (x.accept capacity i) }
  := by
  rw [step] at h
  split at h
  · rename_i targets x hi hx
    obtain ⟨hw, ⟨⟩⟩ := Option.ite_none_right_eq_some.mp h
    use targets, x, hi, hx, hw
  · cases h

theorem receive_eq_some {w : ℕ} (h : s.step capacity (.receive w) = some t) :
  ∃ x y, s.watchers.lookup w = some x ∧ y.delivered = x.delivered ∧ y.wants = x.wants ∧
    y.dropped = x.dropped ∧ t = { s with watchers := s.watchers.insert w y }
  := by
  rw [step] at h
  split at h
  · rename_i wants i buffer received dropped hx
    cases h
    refine ⟨_, ⟨wants, buffer, received ++ [i], dropped⟩, hx, ?_, rfl, rfl, rfl⟩
    simp [Watcher.delivered]
  · cases h

theorem keyOf_congr (h : t.posted = s.posted) :
  t.keyOf = s.keyOf
  := by
  funext i
  rw [keyOf, keyOf, h]

theorem isLatest_congr (h : t.posted = s.posted) (i : ℕ) :
  t.IsLatest i ↔ s.IsLatest i
  := by
  rw [IsLatest, IsLatest, keyOf_congr h, h]

/-- A step leaves the events posted as they are. -/
theorem posted_step {a : Action K} (h : s.step capacity a = some t) :
  t.posted = s.posted
  := by
  cases a with
  | start i targets =>
    obtain ⟨k, -, -, -, rfl⟩ := start_eq_some h
    rfl
  | send i w =>
    obtain ⟨targets, x, -, -, -, rfl⟩ := send_eq_some h
    rfl
  | finish i =>
    obtain ⟨-, ⟨⟩⟩ := Option.ite_none_right_eq_some.mp h
    rfl
  | watch w wants =>
    obtain ⟨-, ⟨⟩⟩ := Option.ite_none_right_eq_some.mp h
    rfl
  | cancel w =>
    obtain ⟨-, ⟨⟩⟩ := Option.ite_none_right_eq_some.mp h
    rfl
  | receive w =>
    obtain ⟨x, y, -, -, -, -, rfl⟩ := receive_eq_some h
    rfl

theorem due_congr {b b' : Board K E} {w : ℕ} {x x' : Watcher K} {i : ℕ}
    (hposted : b'.posted = b.posted) (hpending : b'.pending.lookup i = b.pending.lookup i)
    (hwants : x'.wants = x.wants) :
  b'.due w x' i = b.due w x i
  := by
  rw [due, due, hpending, keyOf, keyOf, hposted, hwants]

/-- Sending an event to a watcher is done with it, and leaves the others. -/
theorem due_send {i w w' : ℕ} {x x' : Watcher K} {targets : List ℕ}
    (hi : s.pending.lookup i = some (some targets)) (hnodup : targets.Nodup) (hw : w ∈ targets)
    (hwants : x'.wants = x.wants) (watchers : GoMap ℕ (Watcher K)) (j : ℕ) :
  ({ s with
     pending := s.pending.insert i (some (targets.erase w))
     watchers := watchers } : Board K E).due w' x' j
    = (s.due w' x j && decide (w' = w → j ≠ i))
  := by
  by_cases hj : j = i
  · subst hj
    rw [due, due, hi]
    dsimp only
    rw [AList.lookup_insert]
    dsimp only
    by_cases hw' : w' = w
    · subst hw'
      simp [hnodup.not_mem_erase]
    · simp [hw', List.mem_erase_of_ne hw']
  · have hsame : decide (w' = w → j ≠ i) = true := by simp [hj]
    rw [hsame, Bool.and_true]
    refine due_congr rfl ?_ hwants
    apply AList.lookup_insert_ne hj

/-- Starting the delivery of an event leaves the events to come as they are. -/
theorem due_start {i w : ℕ} {targets : List ℕ} {k : K} {x : Watcher K}
    (hx : s.watchers.lookup w = some x) (hi : s.pending.lookup i = some none)
    (hk : s.keyOf i = some k) (hperm : targets.Perm (s.wanting k)) (j : ℕ) :
  ({ s with pending := s.pending.insert i (some targets) } : Board K E).due w x j = s.due w x j
  := by
  by_cases hj : j = i
  · subst hj
    rw [due, due, hi]
    dsimp only
    rw [AList.lookup_insert, hk]
    dsimp only [Option.any_some]
    rw [Bool.eq_iff_iff, decide_eq_true_iff, hperm.mem_iff]
    apply mem_wanting hx
  · refine due_congr rfl ?_ rfl
    apply AList.lookup_insert_ne hj

/-- Finishing the delivery of an event leaves the events to come as they are. -/
theorem due_finish {i w : ℕ} {x : Watcher K} (hi : s.pending.lookup i = some (some []))
    (j : ℕ) :
  ({ s with pending := s.pending.erase i } : Board K E).due w x j = s.due w x j
  := by
  by_cases hj : j = i
  · subst hj
    rw [due, due, hi]
    dsimp only
    rw [AList.lookup_erase]
    simp
  · refine due_congr rfl ?_ rfl
    apply AList.lookup_erase_ne hj

/-- The watcher an event is sent to waits for it no more. -/
theorem due_sent (hs : s.Sound) {i w : ℕ} (h : s.step capacity (.send i w) = some t)
    {x : Watcher K} (hx : s.watchers.lookup w = some x) :
  t.watchers.lookup w = some (x.accept capacity i) ∧ s.due w x i = true ∧
    ∀ j, t.due w (x.accept capacity i) j = (s.due w x j && decide (j ≠ i))
  := by
  obtain ⟨targets, y, hi, hy, hw, rfl⟩ := send_eq_some h
  obtain rfl := Option.some.inj (hx.symm.trans hy)
  refine ⟨AList.lookup_insert _, ?_, ?_⟩
  · rw [due, hi]
    apply decide_eq_true hw
  · intro j
    rw [due_send hi (hs.targets i targets hi).1 hw (accept_cases capacity i x).1]
    simp

/-- What a step does to the watchers. -/
theorem move_step {a : Action K} (hs : s.Sound) (h : s.step capacity a = some t) {w : ℕ}
    {x' : Watcher K} (hx' : t.watchers.lookup w = some x') :
  Move capacity s t a w x'
  := by
  cases a with
  | start i targets =>
    obtain ⟨k, hi, hk, hperm, rfl⟩ := start_eq_some h
    refine Move.same x' hx' rfl rfl rfl ?_
    apply due_start (s := s) hx' hi hk hperm
  | send i w₀ =>
    by_cases hw : w = w₀
    · subst hw
      obtain ⟨-, x, -, hx, -, -⟩ := send_eq_some h
      obtain ⟨hlookup, hi, hdue⟩ := due_sent hs h hx
      obtain rfl := Option.some.inj (hlookup.symm.trans hx')
      obtain ⟨hwants, ⟨hroom, hdelivered, hdropped⟩ | ⟨hfull, hdelivered, hdropped⟩⟩ :=
        accept_cases capacity i x
      · apply Move.sent i x rfl hx hwants hi hroom hdelivered hdropped hdue
      · apply Move.lost i x rfl hx hwants hfull hdelivered hdropped hdue
    · obtain ⟨targets, x, hi, -, hw₀, rfl⟩ := send_eq_some h
      refine Move.same x' ((AList.lookup_insert_ne hw).symm.trans hx') rfl rfl rfl ?_
      intro j
      rw [due_send hi (hs.targets i targets hi).1 hw₀ rfl]
      simp [hw]
  | finish i =>
    obtain ⟨hi, ⟨⟩⟩ := Option.ite_none_right_eq_some.mp h
    refine Move.same x' hx' rfl rfl rfl ?_
    apply due_finish hi
  | watch w₀ wants =>
    obtain ⟨⟨hidle, hnew⟩, ⟨⟩⟩ := Option.ite_none_right_eq_some.mp h
    by_cases hw : w = w₀
    · subst hw
      obtain rfl := Option.some.inj ((AList.lookup_insert _).symm.trans hx')
      refine Move.joined rfl rfl ?_ ?_
      · intro j hj
        rw [due] at hj
        split at hj
        · rename_i hpending
          use hpending, hj
        · rename_i targets hpending
          cases lookup_of_idle hidle hpending
        · cases hj
      · intro j hpending hj
        rw [due]
        dsimp only
        rw [hpending]
        apply hj
    · apply Move.same x' ((AList.lookup_insert_ne hw).symm.trans hx') rfl rfl rfl
      intro j
      rfl
  | cancel w₀ =>
    obtain ⟨hidle, ⟨⟩⟩ := Option.ite_none_right_eq_some.mp h
    by_cases hw : w = w₀
    · subst hw
      cases (AList.lookup_erase _ _).symm.trans hx'
    · apply Move.same x' ((AList.lookup_erase_ne hw).symm.trans hx') rfl rfl rfl
      intro j
      rfl
  | receive w₀ =>
    obtain ⟨x, y, hx, hdelivered, hwants, hdropped, rfl⟩ := receive_eq_some h
    by_cases hw : w = w₀
    · subst hw
      obtain rfl := Option.some.inj ((AList.lookup_insert _).symm.trans hx')
      apply Move.same x hx hwants hdelivered hdropped
      intro j
      apply due_congr rfl rfl hwants
    · apply Move.same x' ((AList.lookup_insert_ne hw).symm.trans hx') rfl rfl rfl
      intro j
      rfl

/-! ### Soundness -/

/-- What is to be sent to a watcher, it wants. -/
theorem wants_of_due {b : Board K E} (hb : b.Sound) {w : ℕ} {x : Watcher K}
    (hx : b.watchers.lookup w = some x) {i : ℕ} (hi : b.due w x i = true) :
  (b.keyOf i).any x.wants = true
  := by
  rw [due] at hi
  split at hi
  · apply hi
  · rename_i targets hpending
    obtain ⟨y, hy, hwants⟩ := (hb.targets i targets hpending).2 w (of_decide_eq_true hi)
    obtain rfl := Option.some.inj (hx.symm.trans hy)
    apply hwants
  · cases hi

theorem due_lt {b : Board K E} (hb : b.Sound) {w : ℕ} {x : Watcher K} {i : ℕ}
    (hi : b.due w x i = true) :
  i < b.posted.length
  := by
  rw [due] at hi
  split at hi
  · apply hb.pending_lt i none ‹_›
  · apply hb.pending_lt i _ ‹_›
  · cases hi

theorem mem_keys_of_due {b : Board K E} {w : ℕ} {x : Watcher K} {i : ℕ}
    (h : b.due w x i = true) :
  i ∈ b.pending.keys
  := by
  rw [due] at h
  apply AList.mem_keys.mp
  apply AList.lookup_isSome.mp
  split at h
  · simp [*]
  · simp [*]
  · cases h

/-- The watchers an event is to be sent to want it, after a step that keeps the watchers. -/
private theorem targets_of_kept (hs : s.Sound) (hposted : t.posted = s.posted) {i : ℕ}
    {targets targets' : List ℕ} (hpending : s.pending.lookup i = some (some targets))
    (hsub : targets'.Sublist targets)
    (hkept : ∀ w x, s.watchers.lookup w = some x →
      ∃ x', t.watchers.lookup w = some x' ∧ x'.wants = x.wants) :
  targets'.Nodup ∧
    ∀ w ∈ targets', ∃ x, t.watchers.lookup w = some x ∧ (t.keyOf i).any x.wants = true
  := by
  obtain ⟨hnodup, hall⟩ := hs.targets i targets hpending
  use hsub.nodup hnodup
  intro w hw
  obtain ⟨x, hx, hwants⟩ := hall w (hsub.subset hw)
  obtain ⟨x', hx', hsame⟩ := hkept w x hx
  use x', hx'
  rw [keyOf, hposted, hsame]
  apply hwants

/-- A watcher replaced by one that wants the same is kept. -/
private theorem kept_insert {m : GoMap ℕ (Watcher K)} {w₀ : ℕ} {x₀ y : Watcher K}
    (hx₀ : m.lookup w₀ = some x₀) (hwants : y.wants = x₀.wants) (w : ℕ) (x : Watcher K)
    (hx : m.lookup w = some x) :
  ∃ x', (m.insert w₀ y).lookup w = some x' ∧ x'.wants = x.wants
  := by
  by_cases hw : w = w₀
  · subst hw
    obtain rfl := Option.some.inj (hx₀.symm.trans hx)
    use y, AList.lookup_insert _, hwants
  · use x, (AList.lookup_insert_ne hw).trans hx

/-- A step puts no event on the board. -/
private theorem pending_step {a : Action K} (h : s.step capacity a = some t) {i : ℕ}
    {state : Option (List ℕ)} (hi : t.pending.lookup i = some state) :
  ∃ state', s.pending.lookup i = some state'
  := by
  cases a with
  | start i₀ targets =>
    obtain ⟨k, hi₀, -, -, rfl⟩ := start_eq_some h
    rw [GoMap.lookup_insert_eq_ite] at hi
    split at hi
    · subst i
      use none
    · use state
  | send i₀ w =>
    obtain ⟨targets, x, hi₀, -, -, rfl⟩ := send_eq_some h
    rw [GoMap.lookup_insert_eq_ite] at hi
    split at hi
    · subst i
      use some targets
    · use state
  | finish i₀ =>
    obtain ⟨-, ⟨⟩⟩ := Option.ite_none_right_eq_some.mp h
    rw [GoMap.lookup_erase_eq_ite] at hi
    split at hi
    · cases hi
    · use state
  | watch w wants =>
    obtain ⟨-, ⟨⟩⟩ := Option.ite_none_right_eq_some.mp h
    use state
  | cancel w =>
    obtain ⟨-, ⟨⟩⟩ := Option.ite_none_right_eq_some.mp h
    use state
  | receive w =>
    obtain ⟨x, y, -, -, -, -, rfl⟩ := receive_eq_some h
    use state

private theorem targets_step {a : Action K} (hs : s.Sound) (h : s.step capacity a = some t)
    {i : ℕ} {targets : List ℕ} (hi : t.pending.lookup i = some (some targets)) :
  targets.Nodup ∧
    ∀ w ∈ targets, ∃ x, t.watchers.lookup w = some x ∧ (t.keyOf i).any x.wants = true
  := by
  cases a with
  | start i₀ targets₀ =>
    obtain ⟨k, hi₀, hk, hperm, rfl⟩ := start_eq_some h
    rw [GoMap.lookup_insert_eq_ite] at hi
    split at hi
    · cases hi
      subst i
      use hperm.nodup_iff.mpr (nodup_wanting s k)
      intro w hw
      obtain ⟨x, hx, hwants⟩ := exists_of_mem_wanting (hperm.mem_iff.mp hw)
      use x, hx
      apply (congrArg (Option.any x.wants) hk).trans hwants
    · apply hs.targets i targets hi
  | send i₀ w₀ =>
    obtain ⟨targets₀, x, hi₀, hx, -, rfl⟩ := send_eq_some h
    have hkept := kept_insert hx (accept_cases capacity i₀ x).1
    rw [GoMap.lookup_insert_eq_ite] at hi
    split at hi
    · cases hi
      subst i
      apply targets_of_kept hs (posted_step h) hi₀ List.erase_sublist hkept
    · apply targets_of_kept hs (posted_step h) hi (List.Sublist.refl _) hkept
  | finish i₀ =>
    obtain ⟨-, ⟨⟩⟩ := Option.ite_none_right_eq_some.mp h
    rw [GoMap.lookup_erase_eq_ite] at hi
    split at hi
    · cases hi
    · apply hs.targets i targets hi
  | watch w wants =>
    obtain ⟨⟨hidle, -⟩, ⟨⟩⟩ := Option.ite_none_right_eq_some.mp h
    cases lookup_of_idle hidle hi
  | cancel w =>
    obtain ⟨hidle, ⟨⟩⟩ := Option.ite_none_right_eq_some.mp h
    cases lookup_of_idle hidle hi
  | receive w =>
    obtain ⟨x, y, hx, -, hwants, -, rfl⟩ := receive_eq_some h
    apply targets_of_kept hs (posted_step h) hi (List.Sublist.refl _) (kept_insert hx hwants)

/-- A step keeps a board sound. -/
theorem sound_step {a : Action K} (hs : s.Sound) (h : s.step capacity a = some t) :
  t.Sound
  := by
  have hposted := posted_step h
  constructor
  · intro i state hi
    obtain ⟨state', hstate⟩ := pending_step h hi
    rw [hposted]
    apply hs.pending_lt i state' hstate
  · intro i targets hi
    apply targets_step hs h hi
  · intro w x' hx' i hi
    rw [keyOf, hposted, ← keyOf]
    cases move_step hs h hx' with
    | same x hx hwants hdelivered =>
      rw [hdelivered] at hi
      rw [hwants]
      apply hs.delivered w x hx i hi
    | sent j x _ hx hwants hj _ hdelivered =>
      rw [hdelivered, List.mem_append, List.mem_singleton] at hi
      rw [hwants]
      rcases hi with hi | rfl
      · apply hs.delivered w x hx i hi
      · apply wants_of_due hs hx hj
    | lost j x _ hx hwants _ hdelivered =>
      rw [hdelivered] at hi
      rw [hwants]
      apply hs.delivered w x hx i hi
    | joined _ hdelivered =>
      rw [hdelivered] at hi
      cases hi

end

/-! ### Posting -/

section Post

variable {b : Board K E} {k : K} {e : E}

theorem posted_post (b : Board K E) (k : K) (e : E) :
  (b.post k e).posted = b.posted ++ [(k, e)]
  := rfl

theorem keyOf_post_length (b : Board K E) (k : K) (e : E) :
  (b.post k e).keyOf b.posted.length = some k
  := by
  rw [keyOf, posted_post, List.getElem?_concat_length]
  rfl

theorem keyOf_post_of_lt {i : ℕ} (h : i < b.posted.length) :
  (b.post k e).keyOf i = b.keyOf i
  := by
  rw [keyOf, posted_post, List.getElem?_append_left h]
  rfl

theorem due_post_length (b : Board K E) (k : K) (e : E) (w : ℕ) (x : Watcher K) :
  (b.post k e).due w x b.posted.length = x.wants k
  := by
  have hpending : (b.post k e).pending.lookup b.posted.length = some none :=
    AList.lookup_insert _
  rw [due, hpending]
  dsimp only
  rw [keyOf_post_length]
  rfl

theorem due_post_of_lt {i : ℕ} (h : i < b.posted.length) (w : ℕ) (x : Watcher K) :
  (b.post k e).due w x i = b.due w x i
  := by
  have hpending : (b.post k e).pending.lookup i = b.pending.lookup i :=
    AList.lookup_insert_ne (Nat.ne_of_lt h)
  rw [due, due, hpending, keyOf_post_of_lt h]

/-- What came to a watcher was posted before. -/
theorem delivered_lt (hb : b.Sound) {w : ℕ} {x : Watcher K} (hx : b.watchers.lookup w = some x)
    {i : ℕ} (hi : i ∈ x.delivered) :
  i < b.posted.length
  := by
  obtain ⟨k, hk, -⟩ := (Option.any_eq_true _ _).mp (hb.delivered w x hx i hi)
  apply keyOf_eq_some hk

theorem sound_empty :
  (empty : Board K E).Sound
  := by
  constructor
  · intro i state hi
    cases hi
  · intro i targets hi
    cases hi
  · intro w x hx
    cases hx

/-- Posting an event keeps a board sound. -/
theorem sound_post (hb : b.Sound) (k : K) (e : E) :
  (b.post k e).Sound
  := by
  have hpending : ∀ i state, (b.post k e).pending.lookup i = some state →
      i = b.posted.length ∧ state = none ∨ b.pending.lookup i = some state := by
    intro i state hi
    rw [post, GoMap.lookup_insert_eq_ite] at hi
    split at hi
    · cases hi
      left
      use ‹_›
    · right
      apply hi
  constructor
  · intro i state hi
    rw [posted_post, List.length_append]
    rcases hpending i state hi with ⟨rfl, -⟩ | hold
    · apply Nat.lt_succ_self
    · apply Nat.lt_succ_of_lt (hb.pending_lt i state hold)
  · intro i targets hi
    rcases hpending i _ hi with ⟨-, ⟨⟩⟩ | hold
    rw [keyOf_post_of_lt (hb.pending_lt i _ hold)]
    apply hb.targets i targets hold
  · intro w x hx i hi
    rw [keyOf_post_of_lt (delivered_lt hb hx hi)]
    apply hb.delivered w x hx i hi

/-- The last event of a key after posting one is the last one before or the one posted, and
then the key is that of the event posted. -/
theorem isLatest_of_post {i : ℕ} (h : (b.post k e).IsLatest i) (hi : i ≠ b.posted.length) :
  b.IsLatest i ∧ b.keyOf i ≠ some k
  := by
  obtain ⟨hlt, hlatest⟩ := h
  rw [posted_post, List.length_append, List.length_singleton] at hlt hlatest
  have hold : i < b.posted.length := by omega
  rw [keyOf_post_of_lt hold] at hlatest
  constructor
  · use hold
    intro j hj hij
    apply hlatest j (by omega)
    rw [keyOf_post_of_lt hj, hij]
  · intro hk
    have hle := hlatest b.posted.length (by omega) ((keyOf_post_length b k e).trans hk.symm)
    omega

theorem isLatest_post_of_ne {i : ℕ} (h : b.IsLatest i) (hk : b.keyOf i ≠ some k) :
  (b.post k e).IsLatest i
  := by
  obtain ⟨hlt, hlatest⟩ := h
  rw [IsLatest, posted_post, List.length_append, List.length_singleton, keyOf_post_of_lt hlt]
  use by omega
  intro j hj hij
  by_cases hnew : j = b.posted.length
  · subst hnew
    rw [keyOf_post_length] at hij
    exact absurd hij.symm hk
  · have hold : j < b.posted.length := by omega
    rw [keyOf_post_of_lt hold] at hij
    apply hlatest j hold hij

end Post

end Board
