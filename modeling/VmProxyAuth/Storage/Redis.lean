import VmProxyAuth.Storage.Local

/-!
# The Redis storage

The server keeps a key for a number of whole seconds, or without a limit.  The storage asks
for a limit only if the lifetime is positive, and the client turns it into whole seconds, at
least one.  The keys are of an arbitrary type, as they are only compared and put together.
-/

namespace VmProxyAuth

namespace Storage

/-! ### The server and its client -/

namespace Redis

/-- A value, and the time until which it is kept. -/
structure Entry where
  value : GoString
  expireAt : Option ℤ
  deriving DecidableEq, Repr

/-- The keys of the server. -/
abbrev Keyspace (K : Type) : Type := GoMap K Entry

/-- Whether an entry is kept no longer. -/
def Entry.gone (e : Entry) (now : ℤ) : Bool := e.expireAt.any (fun t => decide (t < now))

variable {K : Type} [DecidableEq K]

/-- `GET`. -/
def get (m : Keyspace K) (now : ℤ) (key : K) : Option GoString :=
  (m.lookup key).bind (fun e => if e.gone now then none else some e.value)

/-- `SET`. -/
def set (m : Keyspace K) (key : K) (value : GoString) : Keyspace K := m.insert key ⟨value, none⟩

/-- `SETEX`. -/
def setEx (m : Keyspace K) (now : ℤ) (key : K) (value : GoString) (seconds : ℤ) : Keyspace K :=
  m.insert key ⟨value, some (now + seconds * Clock.second)⟩

/-- `DEL`. -/
def del (m : Keyspace K) (key : K) : Keyspace K := m.erase key

/-- The whole seconds the client asks for. -/
def formatSec (ttl : ℤ) : ℤ := if 0 < ttl ∧ ttl < Clock.second then 1 else ttl / Clock.second

end Redis

/-! ### The storage -/

namespace RedisStorage

variable {K : Type} [Append K]

/-- `formatKey`. -/
def formatKey (keyPrefix key : K) : K := keyPrefix ++ key

variable [DecidableEq K]

/-- `Get` at the time `now`. -/
def get (keyPrefix : K) (m : Redis.Keyspace K) (now : ℤ) (key : K) :
    Except GoError GoString :=
  found (Redis.get m now (formatKey keyPrefix key))

/-- `Set` at the time `now`. -/
def set (keyPrefix : K) (m : Redis.Keyspace K) (now : ℤ) (key : K) (value : GoString)
    (ttl : ℤ) : Redis.Keyspace K :=
  if 0 < ttl then Redis.setEx m now (formatKey keyPrefix key) value (Redis.formatSec ttl)
  else Redis.set m (formatKey keyPrefix key) value

/-- `Delete`. -/
def delete (keyPrefix : K) (m : Redis.Keyspace K) (key : K) : Redis.Keyspace K :=
  Redis.del m (formatKey keyPrefix key)

/-- `GetMultiple` at the time `now`. -/
def getMultiple (keyPrefix : K) (m : Redis.Keyspace K) (now : ℤ) (keys : List K) :
    GoMap K GoString :=
  GoMap.collect (fun key => Redis.get m now (formatKey keyPrefix key)) keys ∅

/-- `SetMultiple` at the time `now`, the items visited in the given order. -/
def setMultiple (keyPrefix : K) (m : Redis.Keyspace K) (now : ℤ)
    (order : List (K × GoString)) (ttl : ℤ) : Redis.Keyspace K :=
  order.foldl (fun m e => set keyPrefix m now e.1 e.2 ttl) m

/-- The entry made for an item. -/
def entryOf (item : StorageItem) : Redis.Entry :=
  ⟨item.value,
    if 0 < item.ttl then some (item.createdAt + Redis.formatSec item.ttl * Clock.second)
    else none⟩

/-- Whether the server keeps the entry made for an item no longer. -/
def isGone (item : StorageItem) (now : ℤ) : Bool :=
  decide (0 < item.ttl ∧ item.createdAt + Redis.formatSec item.ttl * Clock.second < now)

theorem gone_entryOf (item : StorageItem) (now : ℤ) :
  (entryOf item).gone now = isGone item now
  := by
  rw [Redis.Entry.gone, entryOf, isGone]
  split
  · rename_i httl
    simp [httl]
  · rename_i httl
    simp [httl]

/-- No lifetime, or a positive one of whole seconds. -/
def WholeSeconds (ttl : ℤ) : Prop :=
  ttl = 0 ∨ 0 < ttl ∧ Clock.second ∣ ttl ∧ ttl < Clock.longest

theorem formatSec_of_dvd {ttl : ℤ} (hpos : 0 < ttl) (hdvd : Clock.second ∣ ttl) :
  Redis.formatSec ttl * Clock.second = ttl
  := by
  have hle : Clock.second ≤ ttl := Int.le_of_dvd hpos hdvd
  rw [Redis.formatSec, if_neg (fun h => absurd h.2 (not_lt.mpr hle)), Int.ediv_mul_cancel hdvd]

/-- With a lifetime of whole seconds, an item expires when the server drops its entry. -/
theorem isExpired_eq_isGone {item : StorageItem} (h : WholeSeconds item.ttl) (now : ℤ) :
  item.isExpired now = isGone item now
  := by
  rw [StorageItem.isExpired, isGone]
  obtain hzero | ⟨hpos, hdvd, hlong⟩ := h
  · rw [if_pos hzero, hzero]
    rfl
  · rw [if_neg (ne_of_gt hpos), formatSec_of_dvd hpos hdvd, decide_eq_decide]
    simp only [Clock.sub, Clock.longest] at hlong ⊢
    omega

theorem formatKey_inj {keyPrefix k k' : String} :
  formatKey keyPrefix k = formatKey keyPrefix k' ↔ k = k'
  := by
  rw [formatKey, formatKey, String.append_right_inj]

theorem set_eq_insert (keyPrefix : K) (m : Redis.Keyspace K) (now : ℤ) (key : K)
    (value : GoString) (ttl : ℤ) :
  set keyPrefix m now key value ttl
    = m.insert (formatKey keyPrefix key) (entryOf ⟨value, now, ttl⟩)
  := by
  rw [set, entryOf]
  split
  · rfl
  · rfl

/-- `SetMultiple` sets the entries made for the items. -/
theorem setMultiple_eq_setAll (keyPrefix : K) (m : Redis.Keyspace K) (now : ℤ)
    (order : List (K × GoString)) (ttl : ℤ) :
  setMultiple keyPrefix m now order ttl
    = m.setAll (order.map (fun e => (formatKey keyPrefix e.1, entryOf ⟨e.2, now, ttl⟩)))
  := by
  rw [setMultiple, GoMap.setAll, List.foldl_map]
  simp only [set_eq_insert]

end RedisStorage

end Storage

end VmProxyAuth
