import Mathlib

/-!
# Buffered channels

A Go channel with a buffer.  Sending on a closed channel panics, sending on a full one
blocks; receiving takes the oldest value, and from a closed channel without values it
gives the zero value.
-/

universe u

/-- A buffered channel.  The buffer never holds more values than its capacity. -/
structure Chan (α : Type u) where
  capacity : ℕ
  buffer : List α
  closed : Bool
  bounded : buffer.length ≤ capacity

namespace Chan

variable {α : Type u}

/-- What comes of a send. -/
inductive SendResult (α : Type u) where
  | sent (ch : Chan α)
  | panics
  | blocks

/-- What comes of a receive. -/
inductive ReceiveResult (α : Type u) where
  | received (x : α) (ch : Chan α)
  | zero
  | blocks

/-- `make(chan α, capacity)`. -/
def make (capacity : ℕ) : Chan α := ⟨capacity, [], false, Nat.zero_le capacity⟩

/-- `ch <- x`. -/
def send (ch : Chan α) (x : α) : SendResult α :=
  if ch.closed then .panics
  else if h : ch.buffer.length < ch.capacity then
    .sent { ch with
            buffer := ch.buffer ++ [x]
            bounded := by
              rw [List.length_append]
              exact h }
  else .blocks

/-- `<-ch`. -/
def receive (ch : Chan α) : ReceiveResult α :=
  match h : ch.buffer with
  | x :: rest =>
    .received x { ch with
                  buffer := rest
                  bounded := by
                    have hbounded := ch.bounded
                    rw [h, List.length_cons] at hbounded
                    exact Nat.le_of_succ_le hbounded }
  | [] => if ch.closed then .zero else .blocks

/-- `close(ch)`. -/
def close (ch : Chan α) : Chan α := { ch with closed := true }

/-- Whether a send would block. -/
def sendBlocks (ch : Chan α) : Bool :=
  !ch.closed && decide (ch.capacity ≤ ch.buffer.length)

/-- Whether a receive would block. -/
def receiveBlocks (ch : Chan α) : Bool := !ch.closed && ch.buffer.isEmpty

/-- The oldest value in the buffer can be received. -/
theorem received_of_head? {ch : Chan α} {x : α} (h : ch.buffer.head? = some x) :
  ∃ ch', ch.receive = .received x ch'
  := by
  rw [receive]
  split
  · rename_i y rest hbuffer
    rw [hbuffer] at h
    obtain rfl : y = x := Option.some.inj h
    exact ⟨_, rfl⟩
  · rename_i hbuffer
    rw [hbuffer] at h
    cases h

/-- A value is sent on a channel that is not closed, and is then the newest one. -/
theorem buffer_of_sent {ch ch' : Chan α} {x : α} (h : ch.send x = .sent ch') :
  ch.closed = false ∧ ch'.buffer = ch.buffer ++ [x]
  := by
  rw [send] at h
  split at h
  · cases h
  · rename_i hclosed
    split at h
    · cases h
      exact ⟨Bool.eq_false_of_not_eq_true hclosed, rfl⟩
    · cases h

theorem closed_of_sent {ch ch' : Chan α} {x : α} (h : ch.send x = .sent ch') :
  ch'.closed = ch.closed
  := by
  rw [send] at h
  split at h
  · cases h
  · split at h
    · cases h
      rfl
    · cases h

theorem closed_of_panics {ch : Chan α} {x : α} (h : ch.send x = .panics) :
  ch.closed = true
  := by
  rw [send] at h
  split at h
  · rename_i hclosed
    apply hclosed
  · split at h
    · cases h
    · cases h

/-- Receiving a value leaves the others. -/
theorem buffer_of_received {ch ch' : Chan α} {x : α} (h : ch.receive = .received x ch') :
  ch.buffer = x :: ch'.buffer
  := by
  rw [receive] at h
  split at h
  · rename_i y rest hbuffer
    cases h
    apply hbuffer
  · split at h
    · cases h
    · cases h

theorem closed_of_received {ch ch' : Chan α} {x : α} (h : ch.receive = .received x ch') :
  ch'.closed = ch.closed
  := by
  rw [receive] at h
  split at h
  · cases h
    rfl
  · split at h
    · cases h
    · cases h

theorem buffer_of_zero {ch : Chan α} (h : ch.receive = .zero) :
  ch.buffer = []
  := by
  rw [receive] at h
  split at h
  · cases h
  · rename_i hbuffer
    apply hbuffer

/-- From a closed channel without values the zero value is received. -/
theorem zero_of_closed {ch : Chan α} (hbuffer : ch.buffer = []) (hclosed : ch.closed = true) :
  ch.receive = .zero
  := by
  rw [receive]
  split
  · rename_i y rest hcons
    rw [hbuffer] at hcons
    cases hcons
  · rw [if_pos hclosed]

/-- The zero value is received from a closed channel only. -/
theorem closed_of_zero {ch : Chan α} (h : ch.receive = .zero) :
  ch.closed = true
  := by
  rw [receive] at h
  split at h
  · cases h
  · split at h
    · rename_i hclosed
      apply hclosed
    · cases h

end Chan
