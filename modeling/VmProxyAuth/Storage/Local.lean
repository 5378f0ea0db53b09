import VmProxyAuth.Lib.Expiring
import VmProxyAuth.Storage.Fsm

/-!
# The local storage

The items are kept in memory with the time of their creation.  `Get` deletes an item it finds
expired, so that the storage reads as one that keeps all items (`upTo_get`).  The keys are of an
arbitrary type, as they are only compared.
-/

namespace VmProxyAuth

namespace Storage

/-- The answer of `Get`. -/
def found (value : Option GoString) : Except GoError GoString :=
  value.elim (.error (.app AppError.keyNotFound)) .ok

theorem found_inj {x y : Option GoString} :
  found x = found y ↔ x = y
  := by
  cases x with
  | none => cases y <;> simp [found]
  | some value => cases y <;> simp [found]

/-- The value read under a key of a store of items. -/
def readValue {K : Type} (m : K → Option StorageItem) (now : ℤ) (key : K) : Option GoString :=
  (Expiring.read (fun item => item.isExpired now) m key).map StorageItem.value

namespace LocalStorage

variable {K : Type} [DecidableEq K]

/-- `Get` at the time `now`, with the items as it leaves them. -/
def get (data : GoMap K StorageItem) (now : ℤ) (key : K) :
    Except GoError GoString × GoMap K StorageItem :=
  match data.lookup key with
  | some item =>
    if item.isExpired now then (.error (.app AppError.keyNotFound), data.erase key)
    else (.ok item.value, data)
  | none => (.error (.app AppError.keyNotFound), data)

/-- The store step of `Set` at the time `now`. -/
def set (data : GoMap K StorageItem) (now : ℤ) (key : K) (value : GoString) (ttl : ℤ) :
    GoMap K StorageItem :=
  data.insert key ⟨value, now, ttl⟩

/-- The store step of `Delete`. -/
def delete (data : GoMap K StorageItem) (key : K) : GoMap K StorageItem := data.erase key

/-- The loop body of `GetMultiple`: a key that is found is put into the result. -/
def getNext (now : ℤ) (r : GoMap K GoString × GoMap K StorageItem) (key : K) :
    GoMap K GoString × GoMap K StorageItem :=
  match get r.2 now key with
  | (.ok value, data) => (r.1.insert key value, data)
  | (.error _, data) => (r.1, data)

/-- `GetMultiple` at the time `now`, with the items as it leaves them. -/
def getMultiple (data : GoMap K StorageItem) (now : ℤ) (keys : List K) :
    GoMap K GoString × GoMap K StorageItem :=
  keys.foldl (getNext now) (∅, data)

/-- The store steps of `SetMultiple` at the time `now`, the items visited in the given
order. -/
def setMultiple (data : GoMap K StorageItem) (now : ℤ) (order : List (K × GoString)) (ttl : ℤ) :
    GoMap K StorageItem :=
  order.foldl (fun data e => set data now e.1 e.2 ttl) data

theorem setMultiple_eq_setAll (data : GoMap K StorageItem) (now : ℤ)
    (order : List (K × GoString)) (ttl : ℤ) :
  setMultiple data now order ttl = data.setAll (order.map (fun e => (e.1, ⟨e.2, now, ttl⟩)))
  := by
  rw [setMultiple, GoMap.setAll, List.foldl_map]
  rfl

/-! ### Reading -/

theorem result_get (data : GoMap K StorageItem) (now : ℤ) (key : K) :
  (get data now key).1 = found (readValue data.lookup now key)
  := by
  rw [get, readValue, Expiring.read]
  rcases data.lookup key with _ | item
  · rfl
  · cases h : item.isExpired now with
    | true => simp [h, Option.filter_some, found]
    | false => simp [h, Option.filter_some, found]

variable {data : GoMap K StorageItem} {now : ℤ} {spec : K → Option StorageItem}

/-- What a read deletes has expired. -/
theorem upTo_get (h : Expiring.UpTo (fun item => item.isExpired now) data.lookup spec) (key : K) :
  Expiring.UpTo (fun item => item.isExpired now) (get data now key).2.lookup spec
  := by
  rw [get]
  split
  · rename_i item hitem
    split
    · rename_i hexpired
      have herase : (data.erase key).lookup = Expiring.drop data.lookup key := by
        funext k
        rw [GoMap.lookup_erase_eq_ite, Expiring.drop, Function.update_apply]
      rw [herase]
      apply h.drop hitem hexpired
    · apply h
  · apply h

theorem getNext_eq (h : Expiring.UpTo (fun item => item.isExpired now) data.lookup spec)
    (m : GoMap K GoString) (key : K) :
  getNext now (m, data) key
    = ((readValue spec now key).elim m (fun value => m.insert key value), (get data now key).2)
  := by
  have hresult := result_get data now key
  rw [readValue, h.read_eq, ← readValue] at hresult
  rw [getNext]
  generalize get data now key = g at hresult
  obtain ⟨answer, data'⟩ := g
  dsimp only at hresult
  rw [hresult]
  cases readValue spec now key with
  | none => rfl
  | some value => rfl

/-- `GetMultiple` collects what is read under each key. -/
theorem getMultiple_eq (keys : List K)
    (h : Expiring.UpTo (fun item => item.isExpired now) data.lookup spec) (m : GoMap K GoString) :
  (keys.foldl (getNext now) (m, data)).1 = GoMap.collect (readValue spec now) keys m ∧
    Expiring.UpTo (fun item => item.isExpired now)
      (keys.foldl (getNext now) (m, data)).2.lookup spec
  := by
  induction keys generalizing m data with
  | nil => exact ⟨rfl, h⟩
  | cons key keys ih =>
    rw [List.foldl_cons, getNext_eq h, GoMap.collect, List.foldl_cons, ← GoMap.collect]
    apply ih (upTo_get h key)

end LocalStorage

end Storage

end VmProxyAuth
