import Mathlib

/-!
# Feeds

A reader takes the messages that reach it from a queue, one at a time, whenever it likes.  What it
has not finished is the rest of the log of the messages that have reached it (`Reader.Follows`), so
that it sees them in the order of that log, from the one at which it subscribed.
-/

universe u

namespace Feed

variable {M : Type u}

/-! ### Parts of a log -/

/-- The messages from the position `a` up to the position `b`. -/
def between (log : List M) (a b : ℕ) : List M := (log.take b).drop a

theorem between_self (log : List M) (a : ℕ) :
  between log a a = []
  := by
  apply List.drop_eq_nil_of_le
  apply List.length_take_le

/-- One more message. -/
theorem between_succ {log : List M} {a b : ℕ} {m : M} (hab : a ≤ b) (hm : log[b]? = some m) :
  between log a (b + 1) = between log a b ++ [m]
  := by
  obtain ⟨hb, rfl⟩ := List.getElem?_eq_some_iff.mp hm
  rw [between, List.take_succ_eq_append_getElem hb, List.drop_append_of_le_length, between]
  rw [List.length_take]
  exact le_min hab (hab.trans hb.le)

/-- Later messages make no difference. -/
theorem between_append {log : List M} {b : ℕ} (hb : b ≤ log.length) (a : ℕ) (more : List M) :
  between (log ++ more) a b = between log a b
  := by
  rw [between, List.take_append_of_le_length hb, between]

theorem between_sublist (log : List M) (a b : ℕ) :
  (between log a b).Sublist log
  := (List.drop_sublist a _).trans (List.take_sublist b log)

/-! ### Readers -/

/-- A reader: the position of the first message it has not finished, the message it has taken,
and the messages that wait. -/
structure Reader (M : Type u) where
  position : ℕ
  current : Option M
  inbox : List M

namespace Reader

/-- A reader that subscribes when the log has `n` messages. -/
def subscribe (n : ℕ) : Reader M := ⟨n, none, []⟩

/-- A message reaches the reader. -/
def deliver (r : Reader M) (m : M) : Reader M := { r with inbox := r.inbox ++ [m] }

/-- The reader takes the next message. -/
def take (r : Reader M) (m : M) (rest : List M) : Reader M :=
  { r with current := some m, inbox := rest }

/-- The reader has finished a message. -/
def finish (r : Reader M) : Reader M := { r with position := r.position + 1, current := none }

/-- What the reader has not finished is the rest of the log. -/
structure Follows (log : List M) (r : Reader M) : Prop where
  le : r.position ≤ log.length
  rest : r.current.toList ++ r.inbox = log.drop r.position

section

variable {log : List M} {r : Reader M} {m : M} {rest : List M}

theorem follows_subscribe (log : List M) :
  (subscribe log.length : Reader M).Follows log
  := ⟨le_rfl, List.drop_length.symm⟩

theorem Follows.deliver (h : r.Follows log) (m : M) :
  (r.deliver m).Follows (log ++ [m])
  := by
  constructor
  · rw [List.length_append]
    apply Nat.le_add_right_of_le h.le
  · change r.current.toList ++ (r.inbox ++ [m]) = (log ++ [m]).drop r.position
    rw [List.drop_append_of_le_length h.le, ← h.rest, List.append_assoc]

theorem Follows.take (h : r.Follows log) (hcurrent : r.current = none)
    (hinbox : r.inbox = m :: rest) :
  (r.take m rest).Follows log
  := by
  refine ⟨h.le, ?_⟩
  have hrest := h.rest
  rw [hcurrent, hinbox] at hrest
  exact hrest

/-- The message taken is the next one of the log. -/
theorem Follows.getElem?_position (h : r.Follows log) (hcurrent : r.current = some m) :
  log[r.position]? = some m
  := by
  have hrest := h.rest
  rw [hcurrent] at hrest
  rw [← List.head?_drop, ← hrest]
  rfl

theorem Follows.finish (h : r.Follows log) (hcurrent : r.current = some m) :
  r.finish.Follows log
  := by
  have hnext := h.getElem?_position hcurrent
  obtain ⟨hlt, -⟩ := List.getElem?_eq_some_iff.mp hnext
  refine ⟨hlt, ?_⟩
  have hrest := h.rest
  rw [hcurrent] at hrest
  change r.inbox = log.drop (r.position + 1)
  rw [← List.drop_drop, ← hrest]
  rfl

/-- A reader without messages has finished them all. -/
theorem Follows.position_eq (h : r.Follows log) (hcurrent : r.current = none)
    (hinbox : r.inbox = []) :
  r.position = log.length
  := by
  have hrest := h.rest
  rw [hcurrent, hinbox] at hrest
  apply le_antisymm h.le
  exact List.drop_eq_nil_iff.mp hrest.symm

end

end Reader

end Feed
