import VmProxyAuth.Lib.Channel
import VmProxyAuth.Lib.GoMap

/-!
# Channels in use

Channels by number, with a record of what was done to them that panics: a channel was closed
twice, or a value was sent on a closed one.  `poll` and `close` are the two halves of

    select {
    case <-ch:
    default:
      close(ch)
    }

for a channel `ch`; done at once they are `pollClose`, which closes a channel only if it holds no
values and takes a value out of it otherwise (`ended_iterate_pollClose_iff`).  A registry lists
channels under keys, in the manner of `map[K][]chan E`.
-/

universe u v

/-! ### A channel that is polled -/

namespace Chan

variable {α : Type u}

theorem receiveBlocks_iff {ch : Chan α} :
  ch.receiveBlocks = true ↔ ch.receive = .blocks
  := by
  rw [receiveBlocks, receive]
  split
  · rename_i x rest hbuffer
    simp [hbuffer]
  · rename_i hbuffer
    cases hclosed : ch.closed <;> simp [hbuffer]

/-- Send a value, unless the channel is full. -/
def trySend (ch : Chan α) (x : α) : Chan α :=
  match ch.send x with
  | .sent ch' => ch'
  | _ => ch

/-- An open channel gets the value, unless it is full. -/
theorem trySend_of_open {ch : Chan α} (h : ch.closed = false) (x : α) :
  (ch.trySend x).closed = false ∧
    (ch.trySend x).buffer = if ch.sendBlocks then ch.buffer else ch.buffer ++ [x]
  := by
  rw [trySend, send, sendBlocks, h, if_neg Bool.false_ne_true]
  by_cases hroom : ch.buffer.length < ch.capacity
  · rw [dif_pos hroom, decide_eq_false (not_le.mpr hroom)]
    exact ⟨rfl, rfl⟩
  · rw [dif_neg hroom, decide_eq_true (not_lt.mp hroom)]
    exact ⟨h, rfl⟩

/-- Receive if possible, and close the channel otherwise. -/
def pollClose (ch : Chan α) : Chan α :=
  match ch.receive with
  | .received _ ch' => ch'
  | .zero => ch
  | .blocks => ch.close

/-- A channel without values is closed, if it is not yet. -/
theorem pollClose_of_nil {ch : Chan α} (h : ch.buffer = []) :
  ch.pollClose = ch.close
  := by
  rw [pollClose]
  split
  · rename_i x ch' hreceived
    rw [buffer_of_received hreceived] at h
    cases h
  · rename_i hzero
    rw [close, ← closed_of_zero hzero]
  · rfl

/-- A channel with values loses the oldest one. -/
theorem pollClose_of_cons {ch : Chan α} {x : α} {rest : List α} (h : ch.buffer = x :: rest) :
  ch.pollClose.buffer = rest ∧ ch.pollClose.closed = ch.closed
  := by
  have hhead : ch.buffer.head? = some x := by
    rw [h]
    rfl
  obtain ⟨ch', hreceived⟩ := received_of_head? hhead
  have hpoll : ch.pollClose = ch' := by
    rw [pollClose, hreceived]
  rw [hpoll]
  refine ⟨?_, closed_of_received hreceived⟩
  rw [buffer_of_received hreceived] at h
  apply (List.cons.inj h).2

/-- No value is added by polling. -/
theorem sublist_iterate_pollClose (n : ℕ) (ch : Chan α) :
  (pollClose^[n] ch).buffer.Sublist ch.buffer
  := by
  induction n generalizing ch with
  | zero => exact List.Sublist.refl _
  | succ n ih =>
    apply (ih ch.pollClose).trans
    cases h : ch.buffer with
    | nil =>
      rw [pollClose_of_nil h, close, h]
    | cons x rest =>
      rw [(pollClose_of_cons h).1]
      apply List.sublist_cons_self

theorem length_pollClose_le (ch : Chan α) :
  ch.pollClose.buffer.length ≤ ch.buffer.length
  := by
  cases h : ch.buffer with
  | nil =>
    rw [pollClose_of_nil h, close, h]
  | cons x rest =>
    rw [(pollClose_of_cons h).1]
    apply Nat.le_succ

theorem length_iterate_pollClose_le (n : ℕ) (ch : Chan α) :
  (pollClose^[n] ch).buffer.length ≤ ch.buffer.length
  := by
  induction n generalizing ch with
  | zero => rfl
  | succ n ih => exact (ih ch.pollClose).trans ch.length_pollClose_le

/-- However often it is polled, a channel ends up closed with all its values exactly if it holds
none. -/
theorem ended_iterate_pollClose_iff {ch : Chan α} {n : ℕ} (hn : 0 < n) :
  (pollClose^[n] ch).closed = true ∧ (pollClose^[n] ch).buffer = ch.buffer ↔ ch.buffer = []
  := by
  obtain ⟨n, rfl⟩ := Nat.exists_eq_succ_of_ne_zero hn.ne'
  rw [Function.iterate_succ_apply]
  cases hbuffer : ch.buffer with
  | nil =>
    have hclosed : ch.close.buffer = [] := hbuffer
    have hfixed : Function.IsFixedPt pollClose ch.close := by
      rw [Function.IsFixedPt, pollClose_of_nil hclosed]
      rfl
    rw [pollClose_of_nil hbuffer, hfixed.iterate n]
    simp [close, hbuffer]
  | cons x rest =>
    apply iff_of_false
    · rintro ⟨-, hsame⟩
      have hle := length_iterate_pollClose_le n ch.pollClose
      rw [hsame, (pollClose_of_cons hbuffer).1] at hle
      apply Nat.not_succ_le_self _ hle
    · apply List.cons_ne_nil

end Chan

/-! ### Channels by number -/

/-- What must not be done to a channel. -/
inductive Misuse where
  | closedTwice (w : ℕ)
  | sentOnClosed (w : ℕ)
  deriving DecidableEq, Repr

/-- Channels by number, and how they were misused. -/
structure Channels (E : Type u) where
  chan : ℕ → Chan E
  misuses : List Misuse

namespace Channels

variable {E : Type u} (c : Channels E)

/-- Replace a channel. -/
def set (w : ℕ) (ch : Chan E) : Channels E := { c with chan := Function.update c.chan w ch }

/-- `close(ch)`. -/
def close (w : ℕ) : Channels E where
  chan := Function.update c.chan w (c.chan w).close
  misuses := if (c.chan w).closed then c.misuses ++ [.closedTwice w] else c.misuses

/-- Send a value, unless the channel is full. -/
def trySend (w : ℕ) (x : E) : Channels E :=
  match (c.chan w).send x with
  | .sent ch => c.set w ch
  | .panics => { c with misuses := c.misuses ++ [.sentOnClosed w] }
  | .blocks => c

/-- Receive a value, if there is one. -/
def tryReceive (w : ℕ) : Channels E :=
  match (c.chan w).receive with
  | .received _ ch => c.set w ch
  | _ => c

/-- Receive if possible, with whether it was not. -/
def poll (w : ℕ) : Bool × Channels E := ((c.chan w).receiveBlocks, c.tryReceive w)

/-- Receive if possible, and close the channel otherwise. -/
def pollClose (w : ℕ) : Channels E :=
  if (c.poll w).1 then (c.poll w).2.close w else (c.poll w).2

/-! ### What is closed -/

section

variable {c}

theorem chan_set (w : ℕ) (ch : Chan E) (w' : ℕ) :
  (c.set w ch).chan w' = if w' = w then ch else c.chan w'
  := Function.update_apply c.chan w ch w'

theorem chan_close (w w' : ℕ) :
  (c.close w).chan w' = if w' = w then (c.chan w).close else c.chan w'
  := Function.update_apply c.chan w (c.chan w).close w'

theorem closed_set {w : ℕ} {ch : Chan E} (h : ch.closed = (c.chan w).closed) (w' : ℕ) :
  ((c.set w ch).chan w').closed = (c.chan w').closed
  := by
  rw [chan_set]
  split_ifs with hw
  · rw [h, hw]
  · rfl

@[simp]
theorem closed_close (w w' : ℕ) :
  ((c.close w).chan w').closed = (decide (w' = w) || (c.chan w').closed)
  := by
  rw [chan_close]
  split_ifs with hw
  · simp [hw, Chan.close]
  · simp [hw]

/-- Closing a channel leaves the others as they are. -/
theorem closed_close_of_ne {w w' : ℕ} (h : w' ≠ w) :
  ((c.close w).chan w').closed = (c.chan w').closed
  := by
  rw [closed_close, decide_eq_false h, Bool.false_or]

@[simp]
theorem closed_trySend (w : ℕ) (x : E) (w' : ℕ) :
  ((c.trySend w x).chan w').closed = (c.chan w').closed
  := by
  rw [trySend]
  split
  · rename_i ch hsent
    apply closed_set (Chan.closed_of_sent hsent)
  · rfl
  · rfl

@[simp]
theorem closed_tryReceive (w w' : ℕ) :
  ((c.tryReceive w).chan w').closed = (c.chan w').closed
  := by
  rw [tryReceive]
  split
  · rename_i x ch hreceived
    apply closed_set (Chan.closed_of_received hreceived)
  · rfl

/-- Closing an open channel is no misuse. -/
theorem misuses_close {w : ℕ} (h : (c.chan w).closed = false) :
  (c.close w).misuses = c.misuses
  := by
  rw [close, h]
  rfl

theorem misuses_close_ne_nil {w : ℕ} (h : (c.chan w).closed = true) :
  (c.close w).misuses ≠ []
  := by
  rw [close, h]
  simp

/-- Sending is a misuse exactly of a closed channel. -/
theorem misuses_trySend_eq_nil_iff {w : ℕ} {x : E} (h : c.misuses = []) :
  (c.trySend w x).misuses = [] ↔ (c.chan w).closed = false
  := by
  rw [trySend]
  split
  · rename_i ch hsent
    simp [set, h, (Chan.buffer_of_sent hsent).1]
  · rename_i hpanics
    simp [Chan.closed_of_panics hpanics]
  · rename_i hblocks
    rw [Chan.send] at hblocks
    split_ifs at hblocks with hclosed
    simp [h, hclosed]

@[simp]
theorem misuses_tryReceive (w : ℕ) :
  (c.tryReceive w).misuses = c.misuses
  := by
  rw [tryReceive]
  split
  · rfl
  · rfl

theorem tryReceive_of_blocks {w : ℕ} (h : (c.chan w).receive = .blocks) :
  c.tryReceive w = c
  := by
  rw [tryReceive, h]

/-- The two halves make up the whole. -/
theorem chan_pollClose (w w' : ℕ) :
  (c.pollClose w).chan w' = if w' = w then (c.chan w).pollClose else c.chan w'
  := by
  rw [pollClose, poll, Chan.pollClose]
  cases hreceive : (c.chan w).receive with
  | received x ch =>
    have hready : ¬ (c.chan w).receiveBlocks = true := by
      simp [Chan.receiveBlocks_iff, hreceive]
    rw [if_neg hready, tryReceive, hreceive, chan_set]
  | zero =>
    have hready : ¬ (c.chan w).receiveBlocks = true := by
      simp [Chan.receiveBlocks_iff, hreceive]
    rw [if_neg hready, tryReceive, hreceive]
    split_ifs with hw
    · rw [hw]
    · rfl
  | blocks =>
    rw [if_pos (Chan.receiveBlocks_iff.mpr hreceive), tryReceive_of_blocks hreceive, chan_close]

/-- What is not received from is open. -/
theorem closed_of_poll {w : ℕ} (h : (c.poll w).1 = true) :
  (c.chan w).closed = false
  := by
  rw [poll, Chan.receiveBlocks, Bool.and_eq_true] at h
  simpa using h.1

end

/-! ### Sending to several channels -/

section

variable {c}

theorem chan_trySend (w : ℕ) (x : E) (w' : ℕ) :
  (c.trySend w x).chan w' = if w' = w then (c.chan w).trySend x else c.chan w'
  := by
  rw [trySend, Chan.trySend]
  cases (c.chan w).send x with
  | sent ch => apply chan_set
  | panics =>
    split_ifs with hw
    · rw [hw]
    · rfl
  | blocks =>
    split_ifs with hw
    · rw [hw]
    · rfl

/-- Channels that are sent to once each. -/
theorem chan_foldl_trySend {l : List ℕ} (hl : l.Nodup) (x : E) (w : ℕ) :
  (l.foldl (fun c w => c.trySend w x) c).chan w
    = if w ∈ l then (c.chan w).trySend x else c.chan w
  := by
  induction l generalizing c with
  | nil => rfl
  | cons w' l ih =>
    obtain ⟨hnotMem, hl⟩ := List.nodup_cons.mp hl
    rw [List.foldl_cons, ih hl, chan_trySend]
    by_cases hw : w = w'
    · subst hw
      rw [if_neg hnotMem, if_pos rfl, if_pos List.mem_cons_self]
    · simp only [List.mem_cons, hw, false_or, if_false]

end

/-- Channels that are polled one after the other. -/
def pollCloseAll (l : List ℕ) : Channels E := l.foldl pollClose c

/-- Each channel is polled as often as it is listed. -/
theorem chan_pollCloseAll (l : List ℕ) (w : ℕ) :
  (c.pollCloseAll l).chan w = Chan.pollClose^[l.count w] (c.chan w)
  := by
  induction l generalizing c with
  | nil => rfl
  | cons w' l ih =>
    rw [pollCloseAll, List.foldl_cons, ← pollCloseAll, ih, chan_pollClose]
    by_cases hw : w = w'
    · subst hw
      rw [if_pos rfl, List.count_cons_self, Function.iterate_succ_apply]
    · rw [if_neg hw, List.count_cons_of_ne (Ne.symm hw)]

end Channels

/-! ### Registries -/

/-- Channels listed under keys. -/
abbrev Registry (K : Type u) : Type u := MultiMap K ℕ

namespace Registry

variable {K : Type u} [DecidableEq K]

/-- Take a channel off the list under a key, and the key off the map if the list is empty. -/
def remove (r : Registry K) (k : K) (w : ℕ) : Registry K :=
  if (MultiMap.values r k).erase w = [] then r.erase k
  else r.insert k ((MultiMap.values r k).erase w)

/-- The channels under some keys, in order. -/
def channels (r : Registry K) (order : List K) : List ℕ := order.flatMap (MultiMap.values r)

/-- A channel is listed. -/
def Lists (r : Registry K) (w : ℕ) : Prop := ∃ k, w ∈ MultiMap.values r k

/-- Each channel is listed once, and under the key it belongs to. -/
def Proper (r : Registry K) (keyOf : ℕ → Option K) : Prop :=
  ∀ k, (MultiMap.values r k).Nodup ∧ ∀ w ∈ MultiMap.values r k, keyOf w = some k

theorem values_remove (r : Registry K) (k k' : K) (w : ℕ) :
  MultiMap.values (remove r k w) k'
    = if k' = k then (MultiMap.values r k).erase w else MultiMap.values r k'
  := by
  rw [remove]
  split_ifs with hempty hk hk
  · rw [MultiMap.values, GoMap.lookup_erase_eq_ite, if_pos hk, hempty]
    rfl
  · rw [MultiMap.values, GoMap.lookup_erase_eq_ite, if_neg hk]
    rfl
  · rw [MultiMap.values, GoMap.lookup_insert_eq_ite, if_pos hk]
    rfl
  · rw [MultiMap.values, GoMap.lookup_insert_eq_ite, if_neg hk]
    rfl

theorem mem_channels {r : Registry K} {order : List K} {w : ℕ} (h : w ∈ channels r order) :
  Lists r w
  := by
  obtain ⟨k, -, hw⟩ := List.mem_flatMap.mp h
  use k

/-- All channels are those under all keys. -/
theorem mem_channels_iff {r : Registry K} {order : List K} (h : order.Perm r.keys) {w : ℕ} :
  w ∈ channels r order ↔ Lists r w
  := by
  constructor
  · apply mem_channels
  · rintro ⟨k, hw⟩
    apply List.mem_flatMap.mpr
    refine ⟨k, h.mem_iff.mpr ?_, hw⟩
    by_contra hk
    rw [MultiMap.values, AList.lookup_eq_none.mpr hk] at hw
    cases hw

theorem nodup_channels {r : Registry K} {keyOf : ℕ → Option K} (h : Proper r keyOf)
    {order : List K} (horder : order.Nodup) :
  (channels r order).Nodup
  := by
  apply List.nodup_flatMap.mpr
  refine ⟨fun k _ => (h k).1, horder.imp ?_⟩
  intro k k' hne w hw hw'
  apply hne
  apply Option.some.inj (((h k).2 w hw).symm.trans ((h k').2 w hw'))

theorem not_lists_empty (w : ℕ) :
  ¬ Lists (∅ : Registry K) w
  := by
  rintro ⟨k, hw⟩
  cases hw

theorem lists_add {r : Registry K} {k : K} {w w' : ℕ} :
  Lists (MultiMap.add r k w) w' ↔ Lists r w' ∨ w' = w
  := by
  constructor
  · rintro ⟨k', hw⟩
    rw [MultiMap.values_add, List.mem_append] at hw
    rcases hw with hold | hnew
    · left
      use k'
    · right
      split_ifs at hnew
      · apply List.mem_singleton.mp hnew
      · cases hnew
  · rintro (⟨k', hold⟩ | rfl)
    · use k'
      rw [MultiMap.values_add]
      apply List.mem_append_left _ hold
    · use k
      simp [MultiMap.values_add]

section

variable {r : Registry K} {keyOf : ℕ → Option K}

/-- A channel is taken off. -/
theorem Proper.lists_remove (h : Proper r keyOf) {k : K} {w : ℕ} (hw : keyOf w = some k) (w' : ℕ) :
  Lists (remove r k w) w' ↔ Lists r w' ∧ w' ≠ w
  := by
  simp only [Lists, values_remove]
  constructor
  · rintro ⟨k', hw'⟩
    split_ifs at hw' with hk
    · rw [(h k).1.mem_erase_iff] at hw'
      exact ⟨⟨k, hw'.2⟩, hw'.1⟩
    · refine ⟨⟨k', hw'⟩, ?_⟩
      rintro rfl
      apply hk
      apply Option.some.inj (((h k').2 _ hw').symm.trans hw)
  · rintro ⟨⟨k', hw'⟩, hne⟩
    use k'
    split_ifs with hk
    · subst hk
      apply ((h k').1.mem_erase_iff).mpr ⟨hne, hw'⟩
    · apply hw'

theorem Proper.remove (h : Proper r keyOf) (k : K) (w : ℕ) :
  Proper (remove r k w) keyOf
  := by
  intro k'
  rw [values_remove]
  split_ifs with hk
  · subst hk
    refine ⟨(h k').1.erase w, ?_⟩
    intro w' hw'
    apply (h k').2 w' (List.mem_of_mem_erase hw')
  · apply h k'

theorem Proper.add (h : Proper r keyOf) {k : K} {w : ℕ} (hw : keyOf w = some k)
    (hnew : ¬ Lists r w) :
  Proper (MultiMap.add r k w) keyOf
  := by
  intro k'
  rw [MultiMap.values_add]
  split_ifs with hk
  · subst hk
    constructor
    · apply List.Nodup.append (h k').1 (List.nodup_singleton w)
      intro w' hw' hsingle
      obtain rfl := List.mem_singleton.mp hsingle
      apply hnew ⟨k', hw'⟩
    · intro w' hw'
      rcases List.mem_append.mp hw' with hold | hsingle
      · apply (h k').2 w' hold
      · rw [List.mem_singleton.mp hsingle, hw]
  · rw [List.append_nil]
    apply h k'

theorem proper_empty :
  Proper (∅ : Registry K) keyOf
  := fun _ => ⟨List.nodup_nil, List.forall_mem_nil _⟩

/-- The channels are numbered in the order they are made. -/
theorem Proper.lt_length {keys : List K} (h : Proper r (fun w => keys[w]?)) {w : ℕ}
    (hw : Lists r w) :
  w < keys.length
  := by
  obtain ⟨k, hk⟩ := hw
  apply (List.getElem?_eq_some_iff.mp ((h k).2 w hk)).1

/-- One more channel is made. -/
theorem Proper.append {keys : List K} (h : Proper r (fun w => keys[w]?)) (k : K) :
  Proper r (fun w => (keys ++ [k])[w]?)
  := by
  intro k'
  refine ⟨(h k').1, ?_⟩
  intro w hw
  have hkey := (h k').2 w hw
  dsimp only at hkey ⊢
  rw [List.getElem?_append_left (List.getElem?_eq_some_iff.mp hkey).1, hkey]

/-- One more channel is made, and listed. -/
theorem Proper.register {keys : List K} (h : Proper r (fun w => keys[w]?)) (k : K) :
  Proper (MultiMap.add r k keys.length) (fun w => (keys ++ [k])[w]?)
  := by
  apply (h.append k).add List.getElem?_concat_length
  intro hlisted
  apply lt_irrefl _ (h.lt_length hlisted)

end

end Registry
