import VmProxyAuth.Lib.Machine
import VmProxyAuth.Storage.Local

/-!
# Concurrent calls of the local storage

The items are in a map each of whose operations is atomic.  A call of `Set` makes its item and
stores it in a step of its own; a call of `Get` loads the item, looks whether it has expired and,
if so, deletes whatever is there under the key.  In between, other calls do the same.  So `Get`
may delete an item that was stored after the one it found expired, and a value that was stored
without an expiry is lost (`fresh_value_lost`).  `keepsUpdates_iff` says that nothing is lost
exactly in the runs in which every clean-up finds the item that was loaded, or none.
-/

namespace VmProxyAuth

namespace Storage

namespace Races

variable {K : Type}

/-- An item, with the number of items that were stored before it. -/
structure Entry where
  stamp : ℕ
  item : StorageItem
  deriving DecidableEq

/-- A call in progress: a `Set` that has made its item, or has stored it; a `Get` that has loaded
an item, or has found it expired.  A `Get` comes with the value that it is to return, if there is
one. -/
inductive Call (K : Type) where
  | storing (key : K) (item : StorageItem)
  | stored (stamp : ℕ)
  | loaded (key : K) (due : Option GoString) (e : Entry)
  | cleaning (key : K) (due : Option GoString) (e : Entry)

/-- An answer of `Get`, and the value it was to be. -/
structure Answer where
  due : Option GoString
  result : Except GoError GoString

/-- The items and the calls in progress; whether the storage was closed, and is being cleared.
Beside them, the number of items stored, the item stored last under each key unless the key was
deleted since, the items whose `Set` has returned, the answers of `Get`, and the items cleaned
up, each with the one that had expired. -/
structure State (K : Type) where
  data : GoMap K Entry
  calls : GoMap ℕ (Call K)
  closed : Bool
  clearing : Bool
  stores : ℕ
  last : GoMap K Entry
  completed : Finset ℕ
  answers : List Answer
  cleaned : List (Entry × Entry)

/-- The steps of `Set`, `Delete`, `Get` and `Close`.  The clock may show anything. -/
inductive Action (K : Type) where
  | set (id : ℕ) (key : K) (value : GoString) (ttl : ℤ) (now : ℤ)
  | store (id : ℕ)
  | ret (id : ℕ)
  | delete (key : K)
  | load (id : ℕ) (key : K)
  | look (id : ℕ) (now : ℤ)
  | clean (id : ℕ)
  | close
  | clear (key : K)
  | cleared

variable [DecidableEq K]

/-- The value that a `Get` that starts now is to return: the one stored last, if its `Set` has
returned and it has no expiry. -/
def State.due (s : State K) (key : K) : Option GoString :=
  (s.last.lookup key).bind fun e =>
    if e.item.ttl = 0 ∧ e.stamp ∈ s.completed then some e.item.value else none

/-- The state once the call `id` of `Get` has returned. -/
def State.answer (s : State K) (id : ℕ) (due : Option GoString)
    (result : Except GoError GoString) : State K :=
  { s with
    calls := s.calls.erase id
    answers := s.answers ++ [⟨due, result⟩] }

/-- The state once a call of `Get` has cleaned up and returned: the key is deleted, whatever the
map holds under it. -/
def State.clean (s : State K) (id : ℕ) (key : K) (due : Option GoString) (e : Entry) : State K :=
  { s with
    data := s.data.erase key
    calls := s.calls.erase id
    answers := s.answers ++ [⟨due, .error (.app AppError.keyNotFound)⟩]
    cleaned := s.cleaned ++ ((s.data.lookup key).map (fun f => (e, f))).toList }

/-- One step. -/
def step (s : State K) : Action K → Option (State K)
  | .set id key value ttl now =>
    match s.calls.lookup id with
    | none => some { s with calls := s.calls.insert id (.storing key ⟨value, now, ttl⟩) }
    | _ => none
  | .store id =>
    match s.calls.lookup id with
    | some (.storing key item) =>
      some { s with
             data := s.data.insert key ⟨s.stores, item⟩
             calls := s.calls.insert id (.stored s.stores)
             stores := s.stores + 1
             last := s.last.insert key ⟨s.stores, item⟩ }
    | _ => none
  | .ret id =>
    match s.calls.lookup id with
    | some (.stored stamp) =>
      some { s with calls := s.calls.erase id, completed := insert stamp s.completed }
    | _ => none
  | .delete key => some { s with data := s.data.erase key, last := s.last.erase key }
  | .load id key =>
    match s.calls.lookup id with
    | none =>
      match s.data.lookup key with
      | some e => some { s with calls := s.calls.insert id (.loaded key (s.due key) e) }
      | none => some (s.answer id (s.due key) (.error (.app AppError.keyNotFound)))
    | _ => none
  | .look id now =>
    match s.calls.lookup id with
    | some (.loaded key due e) =>
      if e.item.isExpired now then
        some { s with calls := s.calls.insert id (.cleaning key due e) }
      else some (s.answer id due (.ok e.item.value))
    | _ => none
  | .clean id =>
    match s.calls.lookup id with
    | some (.cleaning key due e) => some (s.clean id key due e)
    | _ => none
  | .close => if s.closed then some s else some { s with closed := true, clearing := true }
  | .clear key =>
    if s.clearing then some { s with data := s.data.erase key, last := s.last.erase key }
    else none
  | .cleared => if s.clearing then some { s with clearing := false } else none

/-- The runs of the storage. -/
def machine : Machine (State K) (Action K) := ⟨step⟩

/-- `NewLocalStorage`. -/
def start : State K := ⟨∅, ∅, false, false, 0, ∅, ∅, [], []⟩

/-- Every `Get` has returned the value it was to return, and no clean-up has removed an item that
was stored after the one that had expired. -/
structure KeepsUpdates (s : State K) : Prop where
  returned : ∀ a ∈ s.answers, ∀ value, a.due = some value → a.result = .ok value
  cleaned : ∀ c ∈ s.cleaned, c.2.stamp ≤ c.1.stamp

/-- What a call is about to clean up. -/
def State.cleaning (s : State K) (id : ℕ) : Option (K × Entry) :=
  match s.calls.lookup id with
  | some (.cleaning key _ e) => some (key, e)
  | _ => none

/-- A clean-up finds the item that was loaded, or none. -/
def FindsLoaded (s : State K) : Action K → Prop
  | .clean id =>
    ∀ c ∈ s.cleaning id, s.data.lookup c.1 = none ∨ s.data.lookup c.1 = some c.2
  | _ => True

instance (s : State K) : ∀ a, Decidable (FindsLoaded s a)
  | .clean id => inferInstanceAs (Decidable (∀ c ∈ s.cleaning id, _ ∨ _))
  | .set .. => isTrue trivial
  | .store _ => isTrue trivial
  | .ret _ => isTrue trivial
  | .delete _ => isTrue trivial
  | .load _ _ => isTrue trivial
  | .look _ _ => isTrue trivial
  | .close => isTrue trivial
  | .clear _ => isTrue trivial
  | .cleared => isTrue trivial

/-! ### The calls alone -/

/-- The items, without their numbers. -/
def items (data : GoMap K Entry) : GoMap K StorageItem := data.mapFilter (fun _ e => some e.item)

theorem lookup_items (data : GoMap K Entry) (key : K) :
  (items data).lookup key = (data.lookup key).map Entry.item
  := by
  rw [items, GoMap.lookup_mapFilter]
  cases data.lookup key <;> rfl

theorem lookup_items_erase (data : GoMap K Entry) (key : K) :
  (items (data.erase key)).lookup = ((items data).erase key).lookup
  := by
  funext k
  rw [lookup_items, GoMap.lookup_erase_eq_ite, GoMap.lookup_erase_eq_ite, lookup_items]
  split_ifs <;> rfl

theorem lookup_items_insert (data : GoMap K Entry) (key : K) (e : Entry) :
  (items (data.insert key e)).lookup = ((items data).insert key e.item).lookup
  := by
  funext k
  rw [lookup_items, GoMap.lookup_insert_eq_ite, GoMap.lookup_insert_eq_ite, lookup_items]
  split_ifs <;> rfl

/-- The steps of a call of `Get` that looks at the clock at the time `now`. -/
def getSteps (s : State K) (id : ℕ) (key : K) (now : ℤ) : List (Action K) :=
  match s.data.lookup key with
  | none => [.load id key]
  | some e =>
    if e.item.isExpired now then [.load id key, .look id now, .clean id]
    else [.load id key, .look id now]

/-- With nothing in between, the steps are those of `Get`. -/
theorem run_getSteps {s : State K} {id : ℕ} (hid : s.calls.lookup id = none) (key : K) (now : ℤ) :
  ∃ t, machine.run s (getSteps s id key now) = some t ∧
    t.answers = s.answers ++ [⟨s.due key, (LocalStorage.get (items s.data) now key).1⟩] ∧
    (items t.data).lookup = (LocalStorage.get (items s.data) now key).2.lookup
  := by
  rw [getSteps, LocalStorage.get, lookup_items]
  cases hdata : s.data.lookup key with
  | none =>
    use s.answer id (s.due key) (.error (.app AppError.keyNotFound))
    simp [Machine.run, machine, step, hid, hdata, State.answer]
  | some e =>
    cases hexpired : e.item.isExpired now with
    | true =>
      simp [Machine.run, machine, step, hid, hdata, hexpired, State.clean, lookup_items_erase]
    | false =>
      simp [Machine.run, machine, step, hid, hdata, hexpired, State.answer]

/-- With nothing in between, the steps of a call of `Set` store what `Set` stores. -/
theorem run_setSteps {s : State K} {id : ℕ} (hid : s.calls.lookup id = none) (key : K)
    (value : GoString) (ttl now : ℤ) :
  ∃ t, machine.run s [.set id key value ttl now, .store id, .ret id] = some t ∧
    (items t.data).lookup = (LocalStorage.set (items s.data) now key value ttl).lookup
  := by
  simp [Machine.run, machine, step, hid, lookup_items_insert, LocalStorage.set]

/-! ### What holds of every state -/

/-- What a call of `Get` has loaded: it is what the map holds, or was stored earlier; and if the
call is to return a value, it is that value. -/
structure Loaded (s : State K) (key : K) (due : Option GoString) (e : Entry) : Prop where
  lt : e.stamp < s.stores
  newer : ∀ f, s.data.lookup key = some f → f = e ∨ e.stamp < f.stamp
  due : ∀ value, due = some value → e.item.value = value ∧ e.item.ttl = 0

/-- What holds of a call in progress. -/
def Call.Fits (s : State K) : Call K → Prop
  | .loaded key due e => Loaded s key due e
  | .cleaning key due e => Loaded s key due e ∧ e.item.ttl ≠ 0
  | _ => True

/-- The map holds the item stored last under each key, except for items that can expire. -/
structure Sound (s : State K) : Prop where
  data : ∀ key e, s.data.lookup key = some e → e.stamp < s.stores ∧ s.last.lookup key = some e
  last : ∀ key e, s.last.lookup key = some e → s.data.lookup key = none → e.item.ttl ≠ 0
  calls : ∀ id c, s.calls.lookup id = some c → c.Fits s

theorem Loaded.mono {s t : State K} {key : K} {due : Option GoString} {e : Entry}
    (h : Loaded s key due e) (hstores : s.stores ≤ t.stores)
    (hdata : ∀ f, t.data.lookup key = some f → s.data.lookup key = some f ∨ s.stores ≤ f.stamp) :
  Loaded t key due e
  := by
  refine ⟨h.lt.trans_le hstores, ?_, h.due⟩
  intro f hf
  rcases hdata f hf with hsame | hnew
  · apply h.newer f hsame
  · right
    apply h.lt.trans_le hnew

theorem Call.Fits.mono {s t : State K} {c : Call K} (h : c.Fits s) (hstores : s.stores ≤ t.stores)
    (hdata : ∀ key f, t.data.lookup key = some f →
      s.data.lookup key = some f ∨ s.stores ≤ f.stamp) :
  c.Fits t
  := by
  cases c with
  | storing key item => trivial
  | stored stamp => trivial
  | loaded key due e => exact Loaded.mono h hstores (hdata key)
  | cleaning key due e => exact ⟨Loaded.mono h.1 hstores (hdata key), h.2⟩

/-- The value that a `Get` is to return is there. -/
theorem Sound.exists_of_due {s : State K} (hs : Sound s) {key : K} {value : GoString}
    (h : s.due key = some value) :
  ∃ e, s.data.lookup key = some e ∧ e.item.value = value ∧ e.item.ttl = 0
  := by
  obtain ⟨e, hlast, hvalue⟩ := Option.bind_eq_some_iff.mp h
  obtain ⟨⟨httl, -⟩, ⟨⟩⟩ := Option.ite_none_right_eq_some.mp hvalue
  use e
  refine ⟨?_, rfl, httl⟩
  cases hdata : s.data.lookup key with
  | none => apply absurd httl (hs.last key e hlast hdata)
  | some f => rw [← hlast, (hs.data key f hdata).2]

/-! ### What a step does -/

section

variable {s t : State K} {a : Action K}

/-- A step that leaves the items as they are, and after which every call was there before or
fits. -/
theorem Sound.of_calls (hs : Sound s) (hdata : t.data = s.data) (hlast : t.last = s.last)
    (hstores : t.stores = s.stores)
    (hcalls : ∀ id c, t.calls.lookup id = some c → s.calls.lookup id = some c ∨ c.Fits s) :
  Sound t
  := by
  refine ⟨hdata ▸ hlast ▸ hstores ▸ hs.data, hdata ▸ hlast ▸ hs.last, ?_⟩
  intro id c hc
  have hfits : c.Fits s := (hcalls id c hc).elim (hs.calls id c) (fun h => h)
  apply hfits.mono hstores.ge
  rw [hdata]
  intro key f hf
  left
  apply hf

theorem Sound.answer (hs : Sound s) (id : ℕ) (due : Option GoString)
    (result : Except GoError GoString) :
  Sound (s.answer id due result)
  := by
  refine hs.of_calls rfl rfl rfl ?_
  intro id' c hc
  left
  apply (GoMap.lookup_erase_eq_some.mp hc).2

/-- The state after a call has started or gone on. -/
theorem Sound.call (hs : Sound s) (id : ℕ) {c : Call K} (hc : c.Fits s) :
  Sound { s with calls := s.calls.insert id c }
  := by
  refine hs.of_calls rfl rfl rfl ?_
  intro id' c' hc'
  rcases GoMap.lookup_insert_eq_some.mp hc' with ⟨-, rfl⟩ | ⟨-, hold⟩
  · right
    apply hc
  · left
    apply hold

/-- A key is deleted. -/
theorem Sound.erase (hs : Sound s) (key : K) :
  Sound { s with data := s.data.erase key, last := s.last.erase key }
  := by
  constructor
  · intro k e he
    obtain ⟨hk, he⟩ := GoMap.lookup_erase_eq_some.mp he
    obtain ⟨hlt, hlast⟩ := hs.data k e he
    exact ⟨hlt, GoMap.lookup_erase_eq_some.mpr ⟨hk, hlast⟩⟩
  · intro k e he hdata
    obtain ⟨hk, he⟩ := GoMap.lookup_erase_eq_some.mp he
    rw [GoMap.lookup_erase_eq_ite, if_neg hk] at hdata
    apply hs.last k e he hdata
  · intro id c hc
    refine (hs.calls id c hc).mono le_rfl ?_
    intro k f hf
    left
    apply (GoMap.lookup_erase_eq_some.mp hf).2

/-- An item is stored. -/
theorem Sound.store (hs : Sound s) (id : ℕ) (key : K) (item : StorageItem) :
  Sound { s with
          data := s.data.insert key ⟨s.stores, item⟩
          calls := s.calls.insert id (.stored s.stores)
          stores := s.stores + 1
          last := s.last.insert key ⟨s.stores, item⟩ }
  := by
  constructor
  · intro k e he
    rcases GoMap.lookup_insert_eq_some.mp he with ⟨rfl, rfl⟩ | ⟨hk, he⟩
    · exact ⟨Nat.lt_succ_self _, AList.lookup_insert _⟩
    · obtain ⟨hlt, hlast⟩ := hs.data k e he
      exact ⟨hlt.trans (Nat.lt_succ_self _), GoMap.lookup_insert_eq_some.mpr (.inr ⟨hk, hlast⟩)⟩
  · intro k e he hdata
    rw [GoMap.lookup_insert_eq_ite] at he hdata
    split_ifs at he hdata
    apply hs.last k e he hdata
  · intro id' c hc
    rcases GoMap.lookup_insert_eq_some.mp hc with ⟨-, rfl⟩ | ⟨-, hold⟩
    · trivial
    · apply (hs.calls id' c hold).mono (Nat.le_succ _)
      intro k f hf
      rcases GoMap.lookup_insert_eq_some.mp hf with ⟨-, rfl⟩ | ⟨-, hf⟩
      · right
        apply le_rfl
      · left
        apply hf

/-- The item that had expired is cleaned up, if it is still there. -/
theorem Sound.clean (hs : Sound s) (id : ℕ) {key : K} (due : Option GoString) {e : Entry}
    (httl : e.item.ttl ≠ 0)
    (hfinds : s.data.lookup key = none ∨ s.data.lookup key = some e) :
  Sound (s.clean id key due e)
  := by
  constructor
  · intro k f hf
    apply hs.data k f (GoMap.lookup_erase_eq_some.mp hf).2
  · intro k f hlast hdata
    rw [State.clean, GoMap.lookup_erase_eq_ite] at hdata
    split_ifs at hdata with hk
    · subst hk
      rcases hfinds with hnone | hsame
      · apply hs.last k f hlast hnone
      · obtain rfl := Option.some.inj (hlast.symm.trans (hs.data k e hsame).2)
        apply httl
    · apply hs.last k f hlast hdata
  · intro id' c hc
    refine (hs.calls id' c (GoMap.lookup_erase_eq_some.mp hc).2).mono le_rfl ?_
    intro k f hf
    left
    apply (GoMap.lookup_erase_eq_some.mp hf).2

omit [DecidableEq K] in
theorem KeepsUpdates.answer (hk : KeepsUpdates s) (id : ℕ) {due : Option GoString}
    {result : Except GoError GoString} (h : ∀ value, due = some value → result = .ok value) :
  KeepsUpdates (s.answer id due result)
  := by
  refine ⟨?_, hk.cleaned⟩
  rw [State.answer, List.forall_mem_append, List.forall_mem_singleton]
  exact ⟨hk.returned, h⟩

/-- An item that can expire is none that a `Get` is to return. -/
theorem Loaded.due_eq_none {key : K} {due : Option GoString} {e : Entry} (h : Loaded s key due e)
    (httl : e.item.ttl ≠ 0) :
  due = none
  := by
  cases due with
  | none => rfl
  | some value => apply absurd (h.due value rfl).2 httl

/-- A clean-up of an item that is not newer finds the one that was loaded. -/
theorem Loaded.stamp_le_iff {key : K} {due : Option GoString} {e : Entry} (h : Loaded s key due e) :
  (∀ f, s.data.lookup key = some f → f.stamp ≤ e.stamp) ↔
    s.data.lookup key = none ∨ s.data.lookup key = some e
  := by
  cases hdata : s.data.lookup key with
  | none => simp
  | some f =>
    simp only [Option.some.injEq, forall_eq', reduceCtorEq, false_or]
    rcases h.newer f hdata with rfl | hlt
    · simp
    · apply iff_of_false
      · omega
      · rintro rfl
        omega

/-- A clean-up keeps all updates exactly if it finds the item that was loaded, or none. -/
theorem KeepsUpdates.clean_iff (hk : KeepsUpdates s) (id : ℕ) {key : K} {due : Option GoString}
    {e : Entry} (hloaded : Loaded s key due e) (httl : e.item.ttl ≠ 0) :
  KeepsUpdates (s.clean id key due e) ↔
    s.data.lookup key = none ∨ s.data.lookup key = some e
  := by
  rw [← hloaded.stamp_le_iff]
  constructor
  · intro hkeeps f hf
    apply hkeeps.cleaned (e, f)
    simp [State.clean, hf]
  · intro hle
    constructor
    · rw [State.clean, List.forall_mem_append, List.forall_mem_singleton,
        hloaded.due_eq_none httl]
      exact ⟨hk.returned, fun _ hvalue => nomatch hvalue⟩
    · rw [State.clean, List.forall_mem_append]
      refine ⟨hk.cleaned, ?_⟩
      simpa using hle

/-- What a step does: it keeps all updates exactly if it is no clean-up that finds another item, and
then it keeps what holds of every state, too. -/
structure Keeps (s : State K) (a : Action K) (t : State K) : Prop where
  keepsUpdates_iff : KeepsUpdates t ↔ FindsLoaded s a
  sound : FindsLoaded s a → Sound t

theorem Keeps.of_sound (hsound : Sound t) (hkeeps : KeepsUpdates t) (ha : FindsLoaded s a) :
  Keeps s a t
  := by
  use iff_of_true hkeeps ha
  intro _
  apply hsound

/-! The steps of a `Set`. -/

theorem keeps_set (hs : Sound s) (hk : KeepsUpdates s) {id : ℕ} {key : K} {value : GoString}
    {ttl now : ℤ} (h : step s (.set id key value ttl now) = some t) :
  Keeps s (.set id key value ttl now) t
  := by
  rw [step] at h
  split at h
  · obtain rfl := Option.some.inj h
    exact .of_sound (hs.call id trivial) ⟨hk.returned, hk.cleaned⟩ trivial
  · cases h

theorem keeps_store (hs : Sound s) (hk : KeepsUpdates s) {id : ℕ}
    (h : step s (.store id) = some t) :
  Keeps s (.store id) t
  := by
  rw [step] at h
  split at h
  · rename_i key item _
    obtain rfl := Option.some.inj h
    exact .of_sound (hs.store id key item) ⟨hk.returned, hk.cleaned⟩ trivial
  · cases h

theorem keeps_ret (hs : Sound s) (hk : KeepsUpdates s) {id : ℕ} (h : step s (.ret id) = some t) :
  Keeps s (.ret id) t
  := by
  rw [step] at h
  split at h
  · obtain rfl := Option.some.inj h
    refine .of_sound (hs.of_calls rfl rfl rfl ?_) ⟨hk.returned, hk.cleaned⟩ trivial
    intro id' c hc
    left
    apply (GoMap.lookup_erase_eq_some.mp hc).2
  · cases h

/-! The steps of a `Get`. -/

/-- The item that is found is the one that is loaded. -/
theorem Sound.loaded (hs : Sound s) {key : K} {e : Entry} (hdata : s.data.lookup key = some e) :
  Loaded s key (s.due key) e
  := by
  constructor
  · apply (hs.data key e hdata).1
  · intro f hf
    left
    apply Option.some.inj (hf.symm.trans hdata)
  · intro value hvalue
    obtain ⟨f, hf, hdue⟩ := hs.exists_of_due hvalue
    obtain rfl := Option.some.inj (hf.symm.trans hdata)
    apply hdue

theorem keeps_load (hs : Sound s) (hk : KeepsUpdates s) {id : ℕ} {key : K}
    (h : step s (.load id key) = some t) :
  Keeps s (.load id key) t
  := by
  rw [step] at h
  split at h
  · split at h
    · rename_i e hdata
      obtain rfl := Option.some.inj h
      exact .of_sound (hs.call id (hs.loaded hdata)) ⟨hk.returned, hk.cleaned⟩ trivial
    · rename_i hdata
      obtain rfl := Option.some.inj h
      refine .of_sound (hs.answer id _ _) (hk.answer id ?_) trivial
      intro value hvalue
      obtain ⟨f, hf, -⟩ := hs.exists_of_due hvalue
      cases hf.symm.trans hdata
  · cases h

theorem keeps_look (hs : Sound s) (hk : KeepsUpdates s) {id : ℕ} {now : ℤ}
    (h : step s (.look id now) = some t) :
  Keeps s (.look id now) t
  := by
  rw [step] at h
  split at h
  · rename_i key due e hcall
    have hloaded : Loaded s key due e := hs.calls id _ hcall
    split_ifs at h with hexpired
    · obtain rfl := Option.some.inj h
      have httl : e.item.ttl ≠ 0 := by
        intro hzero
        rw [StorageItem.isExpired, if_pos hzero] at hexpired
        cases hexpired
      exact .of_sound (hs.call id ⟨hloaded, httl⟩) ⟨hk.returned, hk.cleaned⟩ trivial
    · obtain rfl := Option.some.inj h
      refine .of_sound (hs.answer id _ _) (hk.answer id ?_) trivial
      intro value hvalue
      rw [(hloaded.due value hvalue).1]
  · cases h

/-- The one step that may lose an update. -/
theorem keeps_clean (hs : Sound s) (hk : KeepsUpdates s) {id : ℕ}
    (h : step s (.clean id) = some t) :
  Keeps s (.clean id) t
  := by
  rw [step] at h
  split at h
  · rename_i key due e hcall
    obtain ⟨hloaded, httl⟩ : Loaded s key due e ∧ e.item.ttl ≠ 0 := hs.calls id _ hcall
    obtain rfl := Option.some.inj h
    have hfinds : FindsLoaded s (.clean id) ↔
        s.data.lookup key = none ∨ s.data.lookup key = some e := by
      simp [FindsLoaded, State.cleaning, hcall]
    constructor
    · rw [hfinds]
      apply hk.clean_iff id hloaded httl
    · rw [hfinds]
      apply hs.clean id due httl
  · cases h

/-! The steps of `Close`. -/

theorem keeps_close (hs : Sound s) (hk : KeepsUpdates s) (h : step s .close = some t) :
  Keeps s .close t
  := by
  rw [step] at h
  split_ifs at h
  · obtain rfl := Option.some.inj h
    exact .of_sound hs hk trivial
  · obtain rfl := Option.some.inj h
    exact .of_sound (hs.of_calls rfl rfl rfl fun _ _ hc => .inl hc) ⟨hk.returned, hk.cleaned⟩
      trivial

theorem keeps_cleared (hs : Sound s) (hk : KeepsUpdates s) (h : step s .cleared = some t) :
  Keeps s .cleared t
  := by
  obtain ⟨-, ⟨⟩⟩ := Option.ite_none_right_eq_some.mp h
  exact .of_sound (hs.of_calls rfl rfl rfl fun _ _ hc => .inl hc) ⟨hk.returned, hk.cleaned⟩ trivial

theorem step_spec (hs : Sound s) (hk : KeepsUpdates s) (h : machine.step s a = some t) :
  Keeps s a t
  := by
  cases a with
  | set id key value ttl now => apply keeps_set hs hk h
  | store id => apply keeps_store hs hk h
  | ret id => apply keeps_ret hs hk h
  | delete key =>
    obtain rfl := Option.some.inj h
    exact .of_sound (hs.erase key) ⟨hk.returned, hk.cleaned⟩ trivial
  | load id key => apply keeps_load hs hk h
  | look id now => apply keeps_look hs hk h
  | clean id => apply keeps_clean hs hk h
  | close => apply keeps_close hs hk h
  | clear key =>
    obtain ⟨-, ⟨⟩⟩ := Option.ite_none_right_eq_some.mp h
    exact .of_sound (hs.erase key) ⟨hk.returned, hk.cleaned⟩ trivial
  | cleared => apply keeps_cleared hs hk h

end

theorem sound_start :
  Sound (start : State K)
  := by
  constructor
  · rintro key e ⟨⟩
  · rintro key e ⟨⟩
  · rintro id c ⟨⟩

/-- No update is lost along a run, however the steps of the calls follow each other, exactly if
every clean-up finds the item that was loaded, or none. -/
theorem keepsUpdates_iff (actions : List (Action K)) :
  machine.Always KeepsUpdates start actions ↔ machine.Meets FindsLoaded start actions
  := by
  have hstart : KeepsUpdates (start : State K) := ⟨List.forall_mem_nil _, List.forall_mem_nil _⟩
  apply Machine.always_iff_meets_of_next (J := fun s => Sound s ∧ KeepsUpdates s)
  · intro s a t hs ht hstep
    have hkeeps := step_spec hs.1 hs.2 hstep
    exact ⟨hkeeps.sound (hkeeps.keepsUpdates_iff.mp ht), ht⟩
  · intro s a t hs _ hstep
    apply (step_spec hs.1 hs.2 hstep).keepsUpdates_iff
  · exact ⟨sound_start, hstart⟩
  · apply hstart

/-! ### A value stored before the clean-up -/

/-- A value with a lifetime of `10` expires, and a `Get` finds it so.  Before it deletes the key, a
new value is stored without an expiry, and its `Set` returns.  The next `Get` finds nothing. -/
theorem fresh_value_lost :
  ∃ s, machine.run (start : State GoString)
      [.set 0 (str "k") (str "old") 10 0, .store 0, .ret 0, .load 1 (str "k"), .look 1 20,
        .set 2 (str "k") (str "new") 0 20, .store 2, .ret 2, .clean 1, .load 3 (str "k")] = some s ∧
    s.last.lookup (str "k") = some ⟨1, str "new", 20, 0⟩ ∧
    s.cleaned = [(⟨0, str "old", 0, 10⟩, ⟨1, str "new", 20, 0⟩)] ∧
    s.answers.getLast?.map Answer.due = some (some (str "new")) ∧
    s.answers.getLast?.map Answer.result = some (.error (.app AppError.keyNotFound))
  := by
  refine ⟨_, rfl, ?_, ?_, ?_, ?_⟩
  · decide +kernel
  · decide +kernel
  · decide +kernel
  · rfl

end Races

end Storage

end VmProxyAuth
