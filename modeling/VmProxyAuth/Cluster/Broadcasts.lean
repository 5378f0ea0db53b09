import VmProxyAuth.Lib.Filling
import VmProxyAuth.Lib.GoString
import VmProxyAuth.Lib.Machine

/-!
# Broadcasts

The delegate queues messages for the cluster, and hands out those that fit into a packet.  The
queue is cut inside the loop, and cleared afterwards if what is left has the length of what was
handed out.  So if just half of the messages fit, the other half is lost; `conserved_iff` says
that nothing else is.  The overhead is taken off the limit once, although every message has it
(`withinLimit_iff`).
-/

namespace VmProxyAuth

namespace Cluster

open Filling

/-- The bytes there are for messages. -/
def available (overhead limit : Int64) : ℤ := (limit - overhead).toInt

/-- `GetBroadcasts`: the messages handed out, and the queue it leaves.  The lengths of messages
in memory add up without an overflow. -/
def getBroadcasts (broadcasts : List GoString) (overhead limit : Int64) :
    List GoString × List GoString :=
  if broadcasts.length = 0 then ([], broadcasts)
  else
    -- the rest from the first message that does not fit; the queue stays if all do
    let sent := fill List.length (available overhead limit) 0 broadcasts
    let broadcasts := sent.2.getD broadcasts
    if sent.1.length = broadcasts.length then (sent.1, []) else (sent.1, broadcasts)

/-- `QueueBroadcast`. -/
def queueBroadcast (broadcasts : List GoString) (msg : GoString) : List GoString :=
  broadcasts ++ [msg]

/-- The first `n` messages fit into what is available. -/
def Fits (broadcasts : List GoString) (overhead limit : Int64) (n : ℕ) : Prop :=
  total List.length (broadcasts.take n) ≤ available overhead limit

instance (broadcasts : List GoString) (overhead limit : Int64) (n : ℕ) :
    Decidable (Fits broadcasts overhead limit n) := inferInstanceAs (Decidable (_ ≤ _))

/-- Just half of the messages fit: the first `n` of `2 * n`, and no more. -/
def HalfFits (broadcasts : List GoString) (overhead limit : Int64) : Prop :=
  ∃ n ∈ Finset.Icc 1 broadcasts.length, broadcasts.length = 2 * n ∧
    Fits broadcasts overhead limit n ∧ ¬ Fits broadcasts overhead limit (n + 1)

instance (broadcasts : List GoString) (overhead limit : Int64) :
    Decidable (HalfFits broadcasts overhead limit) :=
  inferInstanceAs (Decidable (∃ _ ∈ Finset.Icc 1 broadcasts.length, _))

section

variable (broadcasts : List GoString) (overhead limit : Int64)

/-- What the loop hands out. -/
def sent : List GoString := (fill List.length (available overhead limit) 0 broadcasts).1

variable {broadcasts overhead limit}

theorem le_length_sent_iff {n : ℕ} (hpos : 0 < n) (h : n ≤ broadcasts.length) :
  n ≤ (sent broadcasts overhead limit).length ↔ Fits broadcasts overhead limit n
  := by
  rw [sent, le_length_taken_iff hpos h, zero_add]
  rfl

/-- What is handed out is the front of the queue. -/
theorem sent_eq_take :
  sent broadcasts overhead limit
    = broadcasts.take (sent broadcasts overhead limit).length
  := taken_eq_take 0 broadcasts

/-- What is handed out, followed by what is behind it, is the queue. -/
theorem sent_append_drop :
  sent broadcasts overhead limit ++ broadcasts.drop (sent broadcasts overhead limit).length
    = broadcasts
  := by
  conv_rhs => rw [← List.take_append_drop (sent broadcasts overhead limit).length broadcasts]
  rw [← sent_eq_take]

theorem length_sent_le :
  (sent broadcasts overhead limit).length ≤ broadcasts.length
  := by
  rw [sent_eq_take]
  apply List.length_take_le'

/-- The messages that fit are handed out, and those behind them are kept, unless they are as
many. -/
theorem getBroadcasts_eq :
  getBroadcasts broadcasts overhead limit
    = (sent broadcasts overhead limit,
      if 2 * (sent broadcasts overhead limit).length = broadcasts.length then []
      else broadcasts.drop (sent broadcasts overhead limit).length)
  := by
  by_cases hlength : broadcasts.length = 0
  · rw [List.length_eq_zero_iff.mp hlength]
    rfl
  · have hsplit : sent broadcasts overhead limit
        ++ (fill List.length (available overhead limit) 0 broadcasts).2.getD [] = broadcasts :=
      taken_append_rest 0 broadcasts
    have hnone : (fill List.length (available overhead limit) 0 broadcasts).2 = none ↔
        (sent broadcasts overhead limit).length = broadcasts.length := rest_eq_none_iff
    rw [getBroadcasts, if_neg hlength]
    dsimp only
    rw [← sent]
    rcases hrest : (fill List.length (available overhead limit) 0 broadcasts).2 with _ | rest
    · -- everything was sent
      have hall := hnone.mp hrest
      rw [Option.getD_none, if_pos hall, if_neg (by omega), hall, List.drop_length]
    · rw [hrest, Option.getD_some] at hsplit
      rw [Option.getD_some]
      have hdrop : broadcasts.drop (sent broadcasts overhead limit).length = rest := by
        apply List.append_cancel_left (sent_append_drop.trans hsplit.symm)
      have hsum := congrArg List.length hsplit
      rw [List.length_append] at hsum
      have hiff : (sent broadcasts overhead limit).length = rest.length ↔
          2 * (sent broadcasts overhead limit).length = broadcasts.length := by
        omega
      rw [hdrop]
      simp only [hiff]
      split_ifs <;> rfl

/-- Half of the messages are handed out exactly if just half of them fit. -/
theorem halfFits_iff :
  HalfFits broadcasts overhead limit ↔
    broadcasts ≠ [] ∧ 2 * (sent broadcasts overhead limit).length = broadcasts.length
  := by
  have hle : (sent broadcasts overhead limit).length ≤ broadcasts.length := length_sent_le
  constructor
  · rintro ⟨n, hn, hlength, hfits, hmore⟩
    have hpos := (Finset.mem_Icc.mp hn).1
    rw [← le_length_sent_iff hpos (by omega)] at hfits
    rw [← le_length_sent_iff (by omega) (by omega)] at hmore
    constructor
    · rintro rfl
      rw [List.length_nil] at hlength
      omega
    · omega
  · rintro ⟨hne, hhalf⟩
    have hpos := List.length_pos_iff.mpr hne
    refine ⟨(sent broadcasts overhead limit).length, ?_, hhalf.symm, ?_, ?_⟩
    · rw [Finset.mem_Icc]
      omega
    · apply (le_length_sent_iff _ _).mp le_rfl
      · omega
      · apply hle
    · rw [← le_length_sent_iff]
      · omega
      · omega
      · omega

end

/-! ### Conservation -/

namespace Broadcasts

/-- The queue, the messages queued so far and those handed out so far. -/
structure State where
  broadcasts : List GoString
  queued : List GoString
  returned : List GoString

/-- A call of `QueueBroadcast` or of `GetBroadcasts`. -/
inductive Call where
  | queue (msg : GoString)
  | get (overhead limit : Int64)

/-- One call. -/
def step (s : State) : Call → Option State
  | .queue msg =>
    some { s with
           broadcasts := queueBroadcast s.broadcasts msg
           queued := s.queued ++ [msg] }
  | .get overhead limit =>
    some { s with
           broadcasts := (getBroadcasts s.broadcasts overhead limit).2
           returned := s.returned ++ (getBroadcasts s.broadcasts overhead limit).1 }

/-- The machine of the calls. -/
def machine : Machine State Call := ⟨step⟩

/-- A delegate that nothing was queued at. -/
def start : State := ⟨[], [], []⟩

/-- What was handed out, followed by the queue, is what was queued. -/
def Conserved (s : State) : Prop := s.returned ++ s.broadcasts = s.queued

/-- Messages are asked for only if not just half of those queued fit. -/
def NotHalf (s : State) : Call → Prop
  | .queue _ => True
  | .get overhead limit => ¬ HalfFits s.broadcasts overhead limit

instance (s : State) : ∀ c, Decidable (NotHalf s c)
  | .queue _ => isTrue trivial
  | .get _ _ => inferInstanceAs (Decidable (¬ _))

/-- A call conserves the messages exactly if it does not ask when just half of them fit. -/
theorem conserved_step_iff {s t : State} {c : Call} (hs : Conserved s)
    (h : machine.step s c = some t) :
  Conserved t ↔ NotHalf s c
  := by
  cases c with
  | queue msg =>
    obtain rfl := Option.some.inj h
    apply iff_of_true _ trivial
    rw [Conserved, queueBroadcast, ← List.append_assoc, hs]
  | get overhead limit =>
    obtain rfl := Option.some.inj h
    rw [Conserved, NotHalf, halfFits_iff, getBroadcasts_eq]
    dsimp only
    rw [List.append_assoc, ← hs, List.append_cancel_left_eq]
    split_ifs with hhalf
    · rw [List.append_nil, and_iff_left hhalf]
      constructor
      · intro hall hne
        have hpos := List.length_pos_iff.mpr hne
        rw [hall] at hhalf
        omega
      · intro hnil
        rw [not_not.mp hnil]
        rfl
    · apply iff_of_true sent_append_drop
      rintro ⟨-, hhalf'⟩
      apply hhalf hhalf'

/-- Along every sequence of calls, what was handed out so far followed by the queue is what was
queued, exactly if messages are never asked for when just half of those queued fit. -/
theorem conserved_iff (calls : List Call) :
  machine.Always Conserved start calls ↔ machine.Meets NotHalf start calls
  := by
  apply Machine.always_iff_meets (J := fun _ => True)
  · intro s c t _ _
    trivial
  · intro s c t _ hs h
    apply conserved_step_iff hs h
  · trivial
  · rfl

/-- Two messages of which one fits: the second one is neither handed out nor kept. -/
theorem second_message_lost :
  ∃ s, machine.run start [.queue [1, 2, 3], .queue [4, 5, 6], .get 0 5] = some s ∧
    s.queued = [[1, 2, 3], [4, 5, 6]] ∧ s.returned = [[1, 2, 3]] ∧ s.broadcasts = []
  := ⟨_, rfl, rfl, by decide, by decide⟩

end Broadcasts

/-! ### The budget -/

/-- The messages, each with the overhead, fit into the limit. -/
def WithinLimit (messages : List GoString) (overhead limit : Int64) : Prop :=
  (messages.map (fun msg => (msg.length : ℤ) + overhead.toInt)).sum ≤ limit.toInt

/-- First messages that fit into what is available, do so with an overhead each; and if not
even the first fits, the limit is not negative. -/
def OverheadsFit (broadcasts : List GoString) (overhead limit : Int64) : Prop :=
  (∀ n ∈ Finset.Icc 1 broadcasts.length, Fits broadcasts overhead limit n →
    total List.length (broadcasts.take n) + n * overhead.toInt ≤ limit.toInt) ∧
  (¬ (broadcasts ≠ [] ∧ Fits broadcasts overhead limit 1) → 0 ≤ limit.toInt)

theorem withinLimit_eq {messages : List GoString} {overhead limit : Int64} :
  WithinLimit messages overhead limit ↔
    total List.length messages + messages.length * overhead.toInt ≤ limit.toInt
  := by
  rw [WithinLimit, List.sum_map_add, List.map_const', List.sum_replicate, nsmul_eq_mul]
  rfl

/-- A negative overhead makes no more available than it adds to the limit. -/
theorem available_le {overhead limit : Int64} (h : overhead.toInt < 0) :
  available overhead limit ≤ limit.toInt - overhead.toInt
  := by
  have hle := overhead.le_toInt
  have hlt := limit.toInt_lt
  have hge := limit.le_toInt
  rw [available, Int64.toInt_sub, Int.bmod_def]
  omega

/-- If messages fit into the limit with an overhead each, so do the first of them that fit into
what is available. -/
theorem overheads_fit_of_le {broadcasts : List GoString} {overhead limit : Int64} {n k : ℕ}
    (hpos : 0 < n) (hnk : n ≤ k) (hfits : Fits broadcasts overhead limit n)
    (h : total List.length (broadcasts.take k) + k * overhead.toInt ≤ limit.toInt) :
  total List.length (broadcasts.take n) + n * overhead.toInt ≤ limit.toInt
  := by
  rcases lt_or_ge overhead.toInt 0 with hneg | hnonneg
  · have hbudget : available overhead limit ≤ limit.toInt - overhead.toInt := available_le hneg
    rw [Fits] at hfits
    have hcast : (1 : ℤ) ≤ n := by exact_mod_cast hpos
    nlinarith
  · have hmono : total List.length (broadcasts.take n) ≤ total List.length (broadcasts.take k) :=
      total_take_mono broadcasts hnk
    have hcast : (n : ℤ) ≤ k := by exact_mod_cast hnk
    nlinarith

/-- The messages handed out fit into the limit with an overhead each, exactly if all first
messages do that fit into what is available. -/
theorem withinLimit_iff (broadcasts : List GoString) (overhead limit : Int64) :
  WithinLimit (getBroadcasts broadcasts overhead limit).1 overhead limit ↔
    OverheadsFit broadcasts overhead limit
  := by
  have hle : (sent broadcasts overhead limit).length ≤ broadcasts.length := length_sent_le
  rw [getBroadcasts_eq, withinLimit_eq, sent_eq_take, List.length_take_of_le hle]
  generalize hk : (sent broadcasts overhead limit).length = k at hle
  have hfits : ∀ n, 0 < n → n ≤ broadcasts.length → (Fits broadcasts overhead limit n ↔ n ≤ k) := by
    intro n hpos hn
    rw [← hk, le_length_sent_iff hpos hn]
  rcases Nat.eq_zero_or_pos k with rfl | hpos
  · -- nothing is handed out
    have hfirst : ¬ (broadcasts ≠ [] ∧ Fits broadcasts overhead limit 1) := by
      rintro ⟨hne, hfit⟩
      have hsome := (hfits 1 one_pos (List.length_pos_iff.mpr hne)).mp hfit
      omega
    rw [List.take_zero, total_nil, Nat.cast_zero, zero_mul, add_zero]
    constructor
    · intro hlimit
      constructor
      · intro n hn hfit
        rw [Finset.mem_Icc] at hn
        have hsome := (hfits n hn.1 hn.2).mp hfit
        omega
      · intro _
        apply hlimit
    · intro h
      apply h.2 hfirst
  · constructor
    · intro hlimit
      constructor
      · intro n hn hfit
        rw [Finset.mem_Icc] at hn
        apply overheads_fit_of_le hn.1 ((hfits n hn.1 hn.2).mp hfit) hfit hlimit
      · intro hfirst
        apply absurd _ hfirst
        use List.length_pos_iff.mp (by omega)
        apply (hfits 1 one_pos (by omega)).mpr hpos
    · intro h
      apply h.1 k
      · rw [Finset.mem_Icc]
        omega
      · apply (hfits k hpos hle).mpr le_rfl

/-- Two messages of four bytes with an overhead of two bytes each take twelve bytes of the ten
there are. -/
theorem second_overhead_missed :
  (getBroadcasts [[1, 2, 3, 4], [5, 6, 7, 8]] 2 10).1 = [[1, 2, 3, 4], [5, 6, 7, 8]] ∧
    ¬ WithinLimit [[1, 2, 3, 4], [5, 6, 7, 8]] 2 10
  := by
  constructor
  · decide
  · rw [withinLimit_eq]
    decide

end Cluster

end VmProxyAuth
