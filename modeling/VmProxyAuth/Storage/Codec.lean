import VmProxyAuth.Storage.Fsm

/-!
# Commands of the log

A command is marshalled to JSON by the node that makes it, and decoded by every node that
applies it.  JSON holds text: in a key that is not text, the bytes that are not are replaced, so
that the command sets or deletes another key.  Setting and deleting a key have the effect they
are to have exactly if the key is text (`codecFaithful_iff`).
-/

namespace VmProxyAuth

namespace Storage

/-! ### Marshalling -/

/-- `raftCommand` as it is marshalled, with strings that need not be text. -/
structure Command where
  type : ℤ
  key : GoString
  value : GoString
  items : GoMap GoString GoString
  ttl : ℤ
  nodeID : GoString
  timestamp : ℤ

/-- A JSON value that is left out if the value it is made of is empty. -/
def omitEmpty {α : Type} (encode : List α → Json) (l : List α) : Option Json :=
  if l = [] then none else some (encode l)

/-- The items of a command as JSON, sorted by key. -/
def itemsJson (items : List (GoString × GoString)) : Json :=
  .object ((items.mergeSort (fun x y => decide (x.1 ≤ y.1))).map
    (fun e => (Utf8.toText e.1, Json.ofBytes e.2)))

/-- The fields of `raftCommand`. -/
def commandFields : List (Json.TaggedField Command RaftCommand) :=
  [⟨"type", fun c => some (.number c.type), Json.readNumber (fun n c => { c with type := n })⟩,
    ⟨"key", fun c => omitEmpty Json.ofString c.key,
      Json.readString (fun s c => { c with key := s })⟩,
    ⟨"value", fun c => omitEmpty Json.ofBytes c.value,
      Json.readBytes (fun b c => { c with value := b })⟩,
    ⟨"items", fun c => omitEmpty itemsJson c.items.items,
      Json.readBytesMap (fun m c => { c with items := m })⟩,
    ⟨"ttl", fun c => some (.number c.ttl), Json.readNumber (fun n c => { c with ttl := n })⟩,
    ⟨"node_id", fun c => some (Json.ofString c.nodeID),
      Json.readString (fun s c => { c with nodeID := s })⟩,
    ⟨"timestamp", fun c => some (.time c.timestamp),
      Json.readTime (fun t c => { c with timestamp := t })⟩]

/-- The zero command. -/
def RaftCommand.zero : RaftCommand := ⟨0, "", [], ∅, 0, "", StorageItem.zero.createdAt⟩

/-- The log entry `Set` makes at the time `now`. -/
def setEntry (nodeID key value : GoString) (ttl now : ℤ) : Json :=
  Json.encodeTagged commandFields ⟨0, key, value, ∅, ttl, nodeID, now⟩

/-- The log entry `Delete` makes at the time `now`. -/
def deleteEntry (nodeID key : GoString) (now : ℤ) : Json :=
  Json.encodeTagged commandFields ⟨1, key, [], ∅, 0, nodeID, now⟩

/-- The command of a log entry. -/
def decodeCommand (entry : Json) : Option RaftCommand :=
  Json.decodeTagged commandFields RaftCommand.zero entry

/-- A command without items is decoded as it was, with its strings read as text: a field that
was left out has the value it has in the zero command. -/
theorem decodeCommand_encode (type : ℤ) (key value : GoString) (ttl : ℤ) (nodeID : GoString)
    (timestamp : ℤ) :
  decodeCommand (Json.encodeTagged commandFields ⟨type, key, value, ∅, ttl, nodeID, timestamp⟩)
    = some ⟨type, Utf8.toText key, value, ∅, ttl, Utf8.toText nodeID, timestamp⟩
  := by
  have hkey : ∀ c : RaftCommand, c.key = "" →
      (omitEmpty Json.ofString key).elim (some c)
          (fun j => Json.readString (fun s c => { c with key := s }) j c)
        = some { c with key := Utf8.toText key } := by
    intro c hc
    rw [omitEmpty]
    split
    · rename_i hempty
      rw [hempty]
      exact congrArg some (congrArg (fun k => { c with key := k }) hc)
    · rfl
  have hvalue : ∀ c : RaftCommand, c.value = [] →
      (omitEmpty Json.ofBytes value).elim (some c)
          (fun j => Json.readBytes (fun b c => { c with value := b }) j c)
        = some { c with value := value } := by
    intro c hc
    rw [omitEmpty]
    split
    · rename_i hempty
      rw [hempty]
      exact congrArg some (congrArg (fun b => { c with value := b }) hc)
    · rw [Option.elim_some, Json.readBytes, Json.toBytes_ofBytes, Option.map_some]
  have hfirst := hkey { RaftCommand.zero with type := type } rfl
  have hsecond := hvalue { RaftCommand.zero with type := type, key := Utf8.toText key } rfl
  rw [decodeCommand, Json.decodeTagged_encodeTagged (by decide)]
  simp only [commandFields, List.foldlM_cons, List.foldlM_nil, Option.elim_some, Json.readNumber,
    Option.bind_eq_bind, Option.bind_some, hfirst, hsecond]
  rfl

/-! ### The state machine -/

/-- The data of a node, with keys that need not be text. -/
abbrev RawData : Type := GoMap GoString StorageItem

/-- `get` of a key that need not be text. -/
def rawGet (data : RawData) (now : ℤ) (key : GoString) : Option GoString :=
  (data.lookup key).bind (fun item => if item.isExpired now then none else some item.value)

/-- `Apply` of a decoded command to data with any keys. -/
def applyRaw (data : RawData) (cmd : RaftCommand) (order : List (String × GoString)) :
    Except GoError (RawData × List StateEvent) :=
  if cmd.type = 0 then
    .ok (data.insert (str cmd.key) (cmd.item cmd.value), [cmd.setEvent cmd.key cmd.value])
  else if cmd.type = 1 then
    .ok (data.erase (str cmd.key), [⟨.delete, cmd.key, [], cmd.timestamp, cmd.nodeID⟩])
  else if cmd.type = 2 then
    .ok (data.setAll (order.map (fun e => (str e.1, cmd.item e.2))),
      order.map (fun e => cmd.setEvent e.1 e.2))
  else .error (.errorf "unknown command type: %d" [.int cmd.type])

/-- `Apply` of a log entry. -/
def applyEntry (data : RawData) (entry : Json) (order : List (String × GoString)) :
    Except GoError (RawData × List StateEvent) :=
  match decodeCommand entry with
  | none => .error (.library "json")
  | some cmd => applyRaw data cmd order

/-- The data have, under keys that are text, the items of data whose keys are all text. -/
def Holds (raw : RawData) (data : Data) : Prop := ∀ key, raw.lookup (str key) = data.lookup key

section

variable {raw : RawData} {data : Data}

theorem Holds.get_eq (h : Holds raw data) (now : ℤ) (key : String) :
  rawGet raw now (str key) = get data now key
  := by
  rw [rawGet, h, get]

theorem Holds.insert (h : Holds raw data) (key : String) (item : StorageItem) :
  Holds (raw.insert (str key) item) (data.insert key item)
  := by
  intro k
  simp only [GoMap.lookup_insert_eq_ite, h k, Utf8.str_injective.eq_iff]

theorem Holds.erase (h : Holds raw data) (key : String) :
  Holds (raw.erase (str key)) (data.erase key)
  := by
  intro k
  simp only [GoMap.lookup_erase_eq_ite, h k, Utf8.str_injective.eq_iff]

theorem Holds.setAll (h : Holds raw data) (item : GoString → StorageItem)
    (order : List (String × GoString)) :
  Holds (raw.setAll (order.map (fun e => (str e.1, item e.2))))
    (data.setAll (order.map (fun e => (e.1, item e.2))))
  := by
  induction order generalizing raw data with
  | nil => apply h
  | cons e order ih =>
    rw [List.map_cons, List.map_cons, GoMap.setAll, GoMap.setAll, List.foldl_cons,
      List.foldl_cons]
    apply ih (h.insert e.1 (item e.2))

/-- A command has on data with any keys the effect it has on the keys that are text. -/
theorem Holds.apply (h : Holds raw data) (cmd : RaftCommand) (order : List (String × GoString)) :
  (∃ err, applyRaw raw cmd order = .error err ∧ Storage.apply data cmd order = .error err) ∨
    ∃ raw' data' events, applyRaw raw cmd order = .ok (raw', events) ∧
      Storage.apply data cmd order = .ok (data', events) ∧ Holds raw' data'
  := by
  rw [applyRaw, Storage.apply]
  split_ifs
  · apply Or.inr ⟨_, _, _, rfl, rfl, h.insert _ _⟩
  · apply Or.inr ⟨_, _, _, rfl, rfl, h.erase _⟩
  · apply Or.inr ⟨_, _, _, rfl, rfl, h.setAll cmd.item order⟩
  · apply Or.inl ⟨_, rfl, rfl⟩

end

/-! ### The effect of `Set` and `Delete` -/

/-- The data with an item under a key, and otherwise as before, as `get` reads them: a read of
the key gives the value of the item until it expires. -/
def Stores (data data' : RawData) (key : GoString) (item : Option StorageItem) : Prop :=
  (∀ t, rawGet data' t key
      = item.bind (fun item => if item.isExpired t then none else some item.value)) ∧
    ∀ key', key' ≠ key → ∀ t, rawGet data' t key' = rawGet data t key'

/-- The log entries of `Set` and of `Delete` do what they are to do. -/
def CodecFaithful (data : RawData) (nodeID : GoString) (now : ℤ) (key value : GoString)
    (ttl : ℤ) : Prop :=
  (∃ data' events, applyEntry data (setEntry nodeID key value ttl now) [] = .ok (data', events) ∧
      Stores data data' key (some ⟨value, now, ttl⟩)) ∧
    ∃ data' events, applyEntry data (deleteEntry nodeID key now) [] = .ok (data', events) ∧
      Stores data data' key none

variable (data : RawData) (nodeID key value : GoString) (ttl now : ℤ)

/-- The log entry of `Set` sets the key as it is read as text. -/
theorem applyEntry_setEntry :
  ∃ events, applyEntry data (setEntry nodeID key value ttl now) []
    = .ok (data.insert (str (Utf8.toText key)) ⟨value, now, ttl⟩, events)
  := by
  rw [applyEntry, setEntry, decodeCommand_encode]
  exact ⟨_, rfl⟩

/-- The log entry of `Delete` deletes the key as it is read as text. -/
theorem applyEntry_deleteEntry :
  ∃ events, applyEntry data (deleteEntry nodeID key now) []
    = .ok (data.erase (str (Utf8.toText key)), events)
  := by
  rw [applyEntry, deleteEntry, decodeCommand_encode]
  exact ⟨_, rfl⟩

theorem stores_insert (item : StorageItem) :
  Stores data (data.insert key item) key (some item)
  := by
  constructor
  · intro t
    rw [rawGet, GoMap.lookup_insert_eq_ite, if_pos rfl]
  · intro key' hne t
    rw [rawGet, GoMap.lookup_insert_eq_ite, if_neg hne, ← rawGet]

theorem stores_erase :
  Stores data (data.erase key) key none
  := by
  constructor
  · intro t
    rw [rawGet, GoMap.lookup_erase_eq_ite, if_pos rfl, Option.bind_none]
  · intro key' hne t
    rw [rawGet, GoMap.lookup_erase_eq_ite, if_neg hne, ← rawGet]

/-- On any data, the entries for a key do what they are to do, for all values and lifetimes,
exactly if the key is text. -/
theorem codecFaithful_iff :
  (∀ value ttl, CodecFaithful data nodeID now key value ttl) ↔ Utf8.Valid key
  := by
  constructor
  · intro h
    rw [Utf8.valid_iff]
    by_contra hne
    -- a value that is not the one under the key before
    have hother : ∃ value, rawGet data now key ≠ some value := by
      cases rawGet data now key with
      | none => exact ⟨[], (Option.some_ne_none []).symm⟩
      | some old =>
        use 0 :: old
        intro heq
        apply List.cons_ne_self 0 old (Option.some.inj heq).symm
    obtain ⟨value, hvalue⟩ := hother
    obtain ⟨data', events, hentry, hstores, -⟩ := (h value 0).1
    obtain ⟨events', hset⟩ := applyEntry_setEntry data nodeID key value 0 now
    rw [hset] at hentry
    cases hentry
    have hread := hstores now
    rw [rawGet, GoMap.lookup_insert_eq_ite, if_neg (Ne.symm hne), ← rawGet] at hread
    apply hvalue hread
  · intro hvalid value ttl
    have hkey := Utf8.valid_iff.mp hvalid
    constructor
    · obtain ⟨events, hset⟩ := applyEntry_setEntry data nodeID key value ttl now
      rw [hkey] at hset
      exact ⟨_, events, hset, stores_insert data key _⟩
    · obtain ⟨events, hdelete⟩ := applyEntry_deleteEntry data nodeID key now
      rw [hkey] at hdelete
      exact ⟨_, events, hdelete, stores_erase data key⟩

/-- The key `"\xff"` is set and cannot be read; the value is under the replacement character. -/
theorem key_replaced :
  ∃ data' events,
    applyEntry ∅ (setEntry (str "node-1") [255] (str "v") 0 0) [] = .ok (data', events) ∧
    rawGet data' 0 [255] = none ∧ rawGet data' 0 [239, 191, 189] = some (str "v") ∧
    rawGet ∅ 0 [239, 191, 189] = none ∧
    ¬ CodecFaithful ∅ (str "node-1") 0 [255] (str "v") 0
  := by
  have hlost : ∀ data' events,
      applyEntry ∅ (setEntry (str "node-1") [255] (str "v") 0 0) [] = .ok (data', events) →
      rawGet data' 0 [255] = none ∧ rawGet data' 0 [239, 191, 189] = some (str "v") := by
    intro data' events h
    obtain ⟨events', hset⟩ := applyEntry_setEntry ∅ (str "node-1") [255] (str "v") 0 0
    rw [hset] at h
    cases h
    decide +kernel
  obtain ⟨events, hset⟩ := applyEntry_setEntry ∅ (str "node-1") [255] (str "v") 0 0
  refine ⟨_, events, hset, (hlost _ _ hset).1, (hlost _ _ hset).2, rfl, ?_⟩
  rintro ⟨⟨data', events', hentry, hread, -⟩, -⟩
  have hnone := (hlost _ _ hentry).1
  rw [hread 0] at hnone
  cases hnone

end Storage

end VmProxyAuth
