import VmProxyAuth.Storage.Refinement
import VmProxyAuth.Storage.Watching

/-!
# Setting several items at once

A command that sets several items has a branch of its own in `Apply`, and the local storage
calls `Set` in a loop.  In whatever order the items are visited, both have the effect of setting
the items one by one in any order (`bulk_set_eq_single_sets`).
-/

namespace VmProxyAuth

namespace Storage

/-! ### The effect of setting items -/

/-- Setting the items at once has stored the same items and made the same events as setting
them one by one, and the other keys have not changed. -/
structure SameEffect {K E : Type} [DecidableEq K] (data : GoMap K StorageItem)
    (items : GoMap K GoString) (bulk single : GoMap K StorageItem × List E) : Prop where
  same_data : ∀ key, bulk.1.lookup key = single.1.lookup key
  same_events : bulk.2.Perm single.2
  unchanged : ∀ key, items.lookup key = none → bulk.1.lookup key = data.lookup key

/-- The effect of setting the items of a map, visited in a given order. -/
def setItems {K E : Type} [DecidableEq K] (data : GoMap K StorageItem) (createdAt ttl : ℤ)
    (event : K × GoString → List E) (order : List (K × GoString)) :
    GoMap K StorageItem × List E :=
  (data.setAll (order.map (fun e => (e.1, ⟨e.2, createdAt, ttl⟩))), order.flatMap event)

/-- The order of the visits does not matter. -/
theorem sameEffect_setItems {K E : Type} [DecidableEq K] (data : GoMap K StorageItem)
    (createdAt ttl : ℤ) (event : K × GoString → List E) {items : GoMap K GoString}
    {order order' : List (K × GoString)} (horder : order.Perm items.items)
    (horder' : order'.Perm items.items) :
  SameEffect data items (setItems data createdAt ttl event order)
    (setItems data createdAt ttl event order')
  := by
  have hlookup : ∀ {l : List (K × GoString)}, l.Perm items.items → ∀ key,
      (setItems data createdAt ttl event l).1.lookup key
        = ((items.lookup key).map (fun value => ⟨value, createdAt, ttl⟩)).or (data.lookup key) := by
    intro l hl key
    apply GoMap.lookup_setAll_map (fun value => (⟨value, createdAt, ttl⟩ : StorageItem)) hl
  constructor
  case same_data =>
    intro key
    rw [hlookup horder, hlookup horder']
  case same_events => apply (horder.trans horder'.symm).flatMap_right
  case unchanged =>
    intro key hkey
    rw [hlookup horder, hkey]
    rfl

/-! ### The replicated state machine -/

/-- `Apply` of one command after the other, with the events for the watchers.  The items of a
command are visited in the order of the map. -/
def applyAll (data : Data) : List RaftCommand → Except GoError (Data × List StateEvent)
  | [] => .ok (data, [])
  | cmd :: cmds =>
    match apply data cmd cmd.items.items with
    | .error err => .error err
    | .ok (data, events) =>
      match applyAll data cmds with
      | .error err => .error err
      | .ok (data, events') => .ok (data, events ++ events')

/-- The event of an item that is set. -/
def setEventOf (nodeID : String) (timestamp : ℤ) (e : String × GoString) : List StateEvent :=
  [⟨.set, e.1, e.2, timestamp, nodeID⟩]

theorem apply_setMultiple (data : Data) (items : GoMap String GoString) (ttl timestamp : ℤ)
    (nodeID : String) (order : List (String × GoString)) :
  apply data (RaftStorage.command nodeID timestamp (.setMultiple items ttl)) order
    = .ok (setItems data timestamp ttl (setEventOf nodeID timestamp) order)
  := by
  have hevents : order.flatMap (setEventOf nodeID timestamp)
      = order.map (fun e => ⟨.set, e.1, e.2, timestamp, nodeID⟩) :=
    List.flatMap_pure_eq_map _ order
  rw [setItems, hevents]
  rfl

theorem applyAll_set (data : Data) (ttl timestamp : ℤ) (nodeID : String)
    (order : List (String × GoString)) :
  applyAll data
      (order.map (fun e => RaftStorage.command nodeID timestamp (.set e.1 e.2 ttl)))
    = .ok (setItems data timestamp ttl (setEventOf nodeID timestamp) order)
  := by
  induction order generalizing data with
  | nil => rfl
  | cons e order ih =>
    have happly : apply data (RaftStorage.command nodeID timestamp (.set e.1 e.2 ttl))
        (RaftStorage.command nodeID timestamp (.set e.1 e.2 ttl)).items.items
        = .ok (data.insert e.1 ⟨e.2, timestamp, ttl⟩, setEventOf nodeID timestamp e) := rfl
    rw [List.map_cons, applyAll, happly]
    dsimp only
    rw [ih]
    rfl

/-! ### The local storage -/

namespace LocalWatch

/-- The writes of a call, all at the time `now`, with the events the watchers are notified of:
none if the storage is closed. -/
def perform (nodeID : GoString) (closed : Bool) (now : ℤ) (data : GoMap GoString StorageItem) :
    List Write → GoMap GoString StorageItem × List Event
  | [] => (data, [])
  | write :: writes =>
    let r := perform nodeID closed now (write.store data now) writes
    (r.1, (if closed then [] else [write.event nodeID now]) ++ r.2)

/-- A call at the time `now`. -/
def Call.perform (nodeID : GoString) (closed : Bool) (now : ℤ)
    (data : GoMap GoString StorageItem) (order : List (GoString × GoString)) (c : Call) :
    Option (GoMap GoString StorageItem × List Event) :=
  (c.writes order).map (LocalWatch.perform nodeID closed now data)

/-- Calls of `Set` one after the other, at the time `now`. -/
def performSets (nodeID : GoString) (closed : Bool) (now ttl : ℤ)
    (data : GoMap GoString StorageItem) :
    List (GoString × GoString) → Option (GoMap GoString StorageItem × List Event)
  | [] => some (data, [])
  | e :: rest => do
    let r ← (Call.set e.1 e.2 ttl).perform nodeID closed now data []
    let r' ← performSets nodeID closed now ttl r.1 rest
    some (r'.1, r.2 ++ r'.2)

/-- The event of an item that is set. -/
def setEventOf (nodeID : GoString) (closed : Bool) (now : ℤ) (e : GoString × GoString) :
    List Event :=
  if closed then [] else [⟨.set, e.1, e.2, now, nodeID⟩]

theorem perform_set (nodeID : GoString) (closed : Bool) (now ttl : ℤ)
    (data : GoMap GoString StorageItem) (order : List (GoString × GoString)) :
  perform nodeID closed now data (order.map (fun e => .set e.1 e.2 ttl))
    = setItems data now ttl (setEventOf nodeID closed now) order
  := by
  induction order generalizing data with
  | nil => rfl
  | cons e order ih =>
    rw [List.map_cons, perform, ih]
    rfl

theorem performSets_eq (nodeID : GoString) (closed : Bool) (now ttl : ℤ)
    (data : GoMap GoString StorageItem) (order : List (GoString × GoString)) :
  performSets nodeID closed now ttl data order
    = some (setItems data now ttl (setEventOf nodeID closed now) order)
  := by
  induction order generalizing data with
  | nil => rfl
  | cons e order ih =>
    have hset : (Call.set e.1 e.2 ttl).perform nodeID closed now data []
        = some (setItems data now ttl (setEventOf nodeID closed now) [e]) :=
      congrArg some (perform_set nodeID closed now ttl data [e])
    simp only [performSets, hset, ih, Option.bind_eq_bind, Option.bind_some]
    simp [setItems, GoMap.setAll]

end LocalWatch

/-! ### Both storages -/

/-- Setting several items at once, visited in any order, has the effect of setting them one by
one in any order, for the state machine as for the local storage. -/
theorem bulk_set_eq_single_sets :
  (∀ (data : Data) (items : GoMap String GoString) (ttl timestamp : ℤ) (nodeID : String)
      (order order' : List (String × GoString)),
      order.Perm items.items → order'.Perm items.items →
      ∃ bulk single,
        apply data (RaftStorage.command nodeID timestamp (.setMultiple items ttl)) order
          = .ok bulk ∧
        applyAll data
            (order'.map (fun e => RaftStorage.command nodeID timestamp (.set e.1 e.2 ttl)))
          = .ok single ∧
        SameEffect data items bulk single) ∧
    ∀ (data : GoMap GoString StorageItem) (items : GoMap GoString GoString) (ttl now : ℤ)
      (nodeID : GoString) (closed : Bool) (order order' : List (GoString × GoString)),
      order.Perm items.items → order'.Perm items.items →
      ∃ bulk single,
        (LocalWatch.Call.setMultiple items ttl).perform nodeID closed now data order
          = some bulk ∧
        LocalWatch.performSets nodeID closed now ttl data order' = some single ∧
        SameEffect data items bulk single
  := by
  constructor
  · intro data items ttl timestamp nodeID order order' horder horder'
    refine ⟨_, _, apply_setMultiple .., applyAll_set .., ?_⟩
    apply sameEffect_setItems data timestamp ttl _ horder horder'
  · intro data items ttl now nodeID closed order order' horder horder'
    refine ⟨setItems data now ttl (LocalWatch.setEventOf nodeID closed now) order, _, ?_,
      LocalWatch.performSets_eq .., ?_⟩
    · rw [LocalWatch.Call.perform, LocalWatch.Call.writes, if_pos horder, Option.map_some,
        LocalWatch.perform_set]
    · apply sameEffect_setItems data now ttl _ horder horder'

/-- Two items, set at once and one by one in the other order, in both storages. -/
theorem two_items_set :
  (∃ bulk single,
    apply ∅ (RaftStorage.command "node-1" 0
        (.setMultiple (GoMap.setAll ∅ [("a", str "1"), ("b", str "2")]) 0))
      [("a", str "1"), ("b", str "2")] = .ok bulk ∧
    applyAll ∅ ([("b", str "2"), ("a", str "1")].map
        (fun e => RaftStorage.command "node-1" 0 (.set e.1 e.2 0))) = .ok single ∧
    SameEffect ∅ (GoMap.setAll ∅ [("a", str "1"), ("b", str "2")]) bulk single) ∧
  ∃ bulk single,
    (LocalWatch.Call.setMultiple
        (GoMap.setAll ∅ [(str "a", str "1"), (str "b", str "2")]) 0).perform
      (str "node-1") false 0 ∅ [(str "a", str "1"), (str "b", str "2")] = some bulk ∧
    LocalWatch.performSets (str "node-1") false 0 0 ∅
      [(str "b", str "2"), (str "a", str "1")] = some single ∧
    SameEffect ∅ (GoMap.setAll ∅ [(str "a", str "1"), (str "b", str "2")]) bulk single
  := by
  obtain ⟨hfsm, hlocal⟩ := bulk_set_eq_single_sets
  constructor
  · apply hfsm
    · decide
    · decide
  · apply hlocal
    · decide +kernel
    · decide +kernel

end Storage

end VmProxyAuth
