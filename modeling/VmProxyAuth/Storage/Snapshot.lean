import VmProxyAuth.Storage.Fsm

/-!
# Snapshots

No field of `storageItem` is exported, so that a snapshot holds the keys of the items and
nothing else: an item that is restored is the zero item, with an empty value and no
expiry.  A snapshot is faithful exactly when the items it holds are such already
(`restored_get_iff`).
-/

namespace VmProxyAuth

namespace Storage

/-- An item that is written and read back is the zero item. -/
theorem decode_encode_storageItem (item : StorageItem) :
  Json.decodeStruct storageItemFields StorageItem.zero
    (Json.encodeStruct storageItemFields item) = StorageItem.zero
  := by
  apply Json.decodeStruct_of_not_exported
  decide

/-- A snapshot that is persisted and restored holds the zero item under the keys of the items
that had not expired. -/
theorem lookup_restored (data : Data) (now : ℤ) :
  ∃ restored, restore (persist (snapshot data now)) = .ok restored ∧
    ∀ key, restored.lookup key
      = (data.lookup key).bind (fun item => if item.isExpired now then none
          else some StorageItem.zero)
  := by
  obtain ⟨restored, hrestored, hlookup⟩ := Json.lookup_decodeMap_encodeMap
    (Json.encodeStruct storageItemFields)
    (Json.decodeStruct storageItemFields StorageItem.zero) (snapshot data now)
  use restored
  constructor
  · rw [restore, persist, hrestored]
  · intro key
    rw [hlookup key, snapshot, GoMap.lookup_mapFilter]
    cases data.lookup key with
    | none => rfl
    | some item =>
      rw [Option.bind_some, Option.bind_some]
      split
      · rfl
      · rw [Option.map_some, decode_encode_storageItem]

/-- What a restored node reads under a key: the empty value for ever, if there was an item
that had not expired. -/
theorem get_restored {data restored : Data} {now now' : ℤ} {key : String}
    (hlookup : restored.lookup key
      = (data.lookup key).bind (fun item => if item.isExpired now then none
          else some StorageItem.zero)) :
  get restored now' key
    = (data.lookup key).bind (fun item => if item.isExpired now then none else some [])
  := by
  rw [get, hlookup]
  cases data.lookup key with
  | none => rfl
  | some item =>
    rw [Option.bind_some, Option.bind_some]
    split
    · rfl
    · rfl

/-- Reading an item gives the empty value from now on exactly if the value is empty and the
item never expires. -/
theorem item_reads_empty_iff {item : StorageItem} {now : ℤ} :
  (∀ now', now ≤ now' → (if item.isExpired now' then none else some item.value) = some []) ↔
    item.value = [] ∧ (item.ttl = 0 ∨ Clock.longest ≤ item.ttl)
  := by
  rw [← @StorageItem.never_expires_iff item now]
  constructor
  · intro h
    constructor
    · have hnow := h now le_rfl
      split at hnow
      · cases hnow
      · exact Option.some.inj hnow
    · intro now' hle
      have hlater := h now' hle
      split at hlater
      · cases hlater
      · rename_i halive
        rwa [Bool.not_eq_true] at halive
  · rintro ⟨hvalue, halive⟩ now' hle
    rw [halive now' hle, hvalue]
    rfl

/-- A restored node reads, from the time of the snapshot on, what the node it was taken from
reads, exactly if every item that had not expired then has an empty value and never
expires. -/
theorem restored_get_iff (data : Data) (now : ℤ) :
  ∃ restored, restore (persist (snapshot data now)) = .ok restored ∧
    ((∀ key now', now ≤ now' → get restored now' key = get data now' key) ↔
      ∀ key item, data.lookup key = some item → item.isExpired now = false →
        item.value = [] ∧ (item.ttl = 0 ∨ Clock.longest ≤ item.ttl))
  := by
  obtain ⟨restored, hrestored, hlookup⟩ := lookup_restored data now
  use restored, hrestored
  apply forall_congr'
  intro key
  have hget : ∀ now', get restored now' key
      = (data.lookup key).bind (fun item => if item.isExpired now then none else some []) :=
    fun now' => get_restored (hlookup key)
  simp only [hget]
  simp only [get]
  cases hitem : data.lookup key with
  | none => simp
  | some item =>
    simp only [Option.bind_some, Option.some.injEq, forall_eq']
    cases hexpired : item.isExpired now with
    | true =>
      simp only [Bool.true_eq_false, false_implies, iff_true, if_true]
      intro now' hle
      rw [StorageItem.isExpired_mono hle hexpired, if_pos rfl]
    | false =>
      simp only [forall_const, Bool.false_eq_true, if_false]
      rw [← @item_reads_empty_iff item now]
      apply forall₂_congr
      intro now' hle
      apply eq_comm

/-! ### A value that is lost -/

/-- The command that sets the state of a backend. -/
def setBackend : RaftCommand where
  type := 0
  key := "backend/1"
  value := str "healthy"
  items := ∅
  ttl := 0
  nodeID := "node-1"
  timestamp := 0

/-- After one command, the restored node reads an empty value. -/
theorem restored_value_empty :
  ∃ restored, restore (persist (snapshot (applyData ∅ setBackend []) 0)) = .ok restored ∧
    get (applyData ∅ setBackend []) 0 "backend/1" = some (str "healthy") ∧
    get restored 0 "backend/1" = some []
  := by
  refine ⟨_, rfl, ?_⟩
  decide +kernel

end Storage

end VmProxyAuth
