import VmProxyAuth.Domain
import VmProxyAuth.Lib.Json

/-!
# The replicated state machine

The data of a node are items with a value, a time of creation and a lifetime.  `apply`
applies a command of the log to them, `get` reads a value that has not expired, and
`snapshot`, `persist` and `restore` carry the items that have not expired over to another
node.  Keys have come through JSON, so that they are valid UTF-8.
-/

namespace VmProxyAuth

namespace Storage

/-! ### Items -/

/-- `storageItem`. -/
structure StorageItem where
  value : GoString
  createdAt : ℤ
  ttl : ℤ
  deriving DecidableEq, Repr

/-- The zero item, created at the zero time, which is before the epoch. -/
def StorageItem.zero : StorageItem := ⟨[], -62135596800 * Clock.second, 0⟩

/-- `isExpired` at the time `now`. -/
def StorageItem.isExpired (item : StorageItem) (now : ℤ) : Bool :=
  if item.ttl = 0 then false else decide (item.ttl < Clock.sub now item.createdAt)

/-- An item that has expired stays expired. -/
theorem StorageItem.isExpired_mono {item : StorageItem} {now now' : ℤ} (h : now ≤ now')
    (hexpired : item.isExpired now = true) :
  item.isExpired now' = true
  := by
  rw [isExpired] at hexpired ⊢
  split at hexpired
  · cases hexpired
  · rename_i httl
    rw [if_neg httl]
    have hmono := Clock.sub_mono (t := item.createdAt) h
    have hlater := of_decide_eq_true hexpired
    apply decide_eq_true
    omega

/-- An item never expires if it has no lifetime, or the longest one. -/
theorem StorageItem.never_expires_iff {item : StorageItem} {now : ℤ} :
  (∀ now', now ≤ now' → item.isExpired now' = false) ↔ item.ttl = 0 ∨ Clock.longest ≤ item.ttl
  := by
  constructor
  · intro h
    by_contra hlimited
    rw [not_or, not_le] at hlimited
    obtain ⟨now', hnow, hlater⟩ := Clock.exists_sub_gt now item.createdAt hlimited.2
    have halive := h now' hnow
    rw [isExpired, if_neg hlimited.1] at halive
    exact absurd hlater (of_decide_eq_false halive)
  · rintro (hzero | hlong) now' -
    · rw [isExpired, if_pos hzero]
    · have hmax := Clock.sub_le_longest now' item.createdAt
      rw [isExpired]
      split
      · rfl
      · apply decide_eq_false
        omega

/-- The data of a node. -/
abbrev Data : Type := GoMap String StorageItem

/-- `get`, without the clean-up it spawns. -/
def get (data : Data) (now : ℤ) (key : String) : Option GoString :=
  (data.lookup key).bind (fun item => if item.isExpired now then none else some item.value)

/-- Whether `get` spawns a clean-up: there is an item and it has expired. -/
def getSpawns (data : Data) (now : ℤ) (key : String) : Bool :=
  (data.lookup key).any (fun item => item.isExpired now)

/-- The clean-up `get` spawns. -/
def cleanup (data : Data) (key : String) : Data := data.erase key

/-! ### Commands -/

/-- `raftCommand`, as decoded from a log entry. -/
structure RaftCommand where
  type : ℤ
  key : String
  value : GoString
  items : GoMap String GoString
  ttl : ℤ
  nodeID : String
  timestamp : ℤ

/-- What happened to a key. -/
inductive StateEventType where
  | set
  | delete
  deriving DecidableEq, Repr

/-- An event for the watchers of a key. -/
structure StateEvent where
  type : StateEventType
  key : String
  value : GoString
  timestamp : ℤ
  nodeID : String
  deriving DecidableEq, Repr

/-- The item a command sets. -/
def RaftCommand.item (cmd : RaftCommand) (value : GoString) : StorageItem :=
  ⟨value, cmd.timestamp, cmd.ttl⟩

/-- The event for a key a command sets. -/
def RaftCommand.setEvent (cmd : RaftCommand) (key : String) (value : GoString) : StateEvent :=
  ⟨.set, key, value, cmd.timestamp, cmd.nodeID⟩

/-- `Apply` of a decoded command, with the events for the watchers.  The items of a command
that sets several are visited in the given order. -/
def apply (data : Data) (cmd : RaftCommand) (order : List (String × GoString)) :
    Except GoError (Data × List StateEvent) :=
  if cmd.type = 0 then
    .ok (data.insert cmd.key (cmd.item cmd.value), [cmd.setEvent cmd.key cmd.value])
  else if cmd.type = 1 then
    .ok (data.erase cmd.key, [⟨.delete, cmd.key, [], cmd.timestamp, cmd.nodeID⟩])
  else if cmd.type = 2 then
    .ok (data.setAll (order.map (fun e => (e.1, cmd.item e.2))),
      order.map (fun e => cmd.setEvent e.1 e.2))
  else .error (.errorf "unknown command type: %d" [.int cmd.type])

/-- The data after `Apply`, which leaves them as they are when it fails. -/
def applyData (data : Data) (cmd : RaftCommand) (order : List (String × GoString)) : Data :=
  match apply data cmd order with
  | .ok (data', _) => data'
  | .error _ => data

/-- The item a command leaves under a key, given the item before. -/
def RaftCommand.effect (cmd : RaftCommand) (key : String) (before : Option StorageItem) :
    Option StorageItem :=
  if cmd.type = 0 then if key = cmd.key then some (cmd.item cmd.value) else before
  else if cmd.type = 1 then if key = cmd.key then none else before
  else if cmd.type = 2 then ((cmd.items.lookup key).map cmd.item).or before
  else before

/-- What is stored after a command depends only on the command and on what was stored
before, not on the order in which items are visited. -/
theorem lookup_applyData {cmd : RaftCommand} {order : List (String × GoString)}
    (h : order.Perm cmd.items.items) (data : Data) (key : String) :
  (applyData data cmd order).lookup key = cmd.effect key (data.lookup key)
  := by
  rw [applyData, apply, RaftCommand.effect]
  split_ifs with hset hdelete hmultiple
  · rw [GoMap.lookup_insert_eq_ite, if_pos ‹key = cmd.key›]
  · rw [GoMap.lookup_insert_eq_ite, if_neg ‹¬ key = cmd.key›]
  · rw [GoMap.lookup_erase_eq_ite, if_pos ‹key = cmd.key›]
  · rw [GoMap.lookup_erase_eq_ite, if_neg ‹¬ key = cmd.key›]
  · apply GoMap.lookup_setAll_map cmd.item h
  · rfl

/-! ### Snapshots -/

/-- `Snapshot` at the time `now`: the items that have not expired. -/
def snapshot (data : Data) (now : ℤ) : Data :=
  data.mapFilter (fun _ item => if item.isExpired now then none else some item)

/-- The fields of `storageItem`. -/
def storageItemFields : List (Json.Field StorageItem) :=
  [⟨"value", fun item => .bytes item.value,
      fun j item => match j with
        | .bytes b => { item with value := b }
        | _ => item⟩,
    ⟨"createdAt", fun item => .time item.createdAt,
      fun j item => match j with
        | .time t => { item with createdAt := t }
        | _ => item⟩,
    ⟨"ttl", fun item => .number item.ttl,
      fun j item => match j with
        | .number n => { item with ttl := n }
        | _ => item⟩]

/-- `raftSnapshot.Persist`. -/
def persist (data : Data) : Json := Json.encodeMap (Json.encodeStruct storageItemFields) data

/-- `Restore`. -/
def restore (j : Json) : Except GoError Data :=
  match Json.decodeMap (Json.decodeStruct storageItemFields StorageItem.zero) j with
  | some data => .ok data
  | none => .error (.wrapf "failed to decode snapshot: %w" [] (.library "json"))

end Storage

end VmProxyAuth
