import VmProxyAuth.Lib.Machine
import VmProxyAuth.Storage.Redis

/-!
# Three storages and one map

The local storage, the Raft storage on the leader and the Redis storage are given the same
calls.  `written` is the map they are to refine: it has the last item written under every key.
The local storage loses only expired items, the state machine may lose an item to a clean-up,
and Redis has an entry for every item (`refines_step`).  So the three answer alike exactly if,
whenever a key is read, its item has expired for the local storage when it has for Redis, and
is still in the state machine if it has not expired (`answers_agree_iff`).
-/

namespace VmProxyAuth

namespace Storage

/-! ### Writes -/

/-- A call that writes. -/
inductive Write where
  | set (key : String) (value : GoString) (ttl : ℤ)
  | setMultiple (items : GoMap String GoString) (ttl : ℤ)
  | delete (key : String)

namespace Write

/-- The items of a call of `SetMultiple`. -/
def items : Write → GoMap String GoString
  | setMultiple items _ => items
  | _ => ∅

/-- What a call at the time `now` writes under a key. -/
def effect (now : ℤ) : Write → String → Option (Option StorageItem)
  | set key value ttl, k => if k = key then some (some ⟨value, now, ttl⟩) else none
  | setMultiple items ttl, k => (items.lookup k).map (fun value => some ⟨value, now, ttl⟩)
  | delete key, k => if k = key then some none else none

end Write

/-- A call that writes, at the local storage. -/
def LocalStorage.write (data : Data) (now : ℤ) (order : List (String × GoString)) : Write → Data
  | .set key value ttl => set data now key value ttl
  | .setMultiple _ ttl => setMultiple data now order ttl
  | .delete key => delete data key

/-- A call that writes, at the Redis storage. -/
def RedisStorage.write (keyPrefix : String) (m : Redis.Keyspace String) (now : ℤ)
    (order : List (String × GoString)) : Write → Redis.Keyspace String
  | .set key value ttl => set keyPrefix m now key value ttl
  | .setMultiple _ ttl => setMultiple keyPrefix m now order ttl
  | .delete key => delete keyPrefix m key

namespace RaftStorage

/-- The command for a call that writes. -/
def command (nodeID : String) (now : ℤ) : Write → RaftCommand
  | .set key value ttl => ⟨0, key, value, ∅, ttl, nodeID, now⟩
  | .delete key => ⟨1, key, [], ∅, 0, nodeID, now⟩
  | .setMultiple items ttl => ⟨2, "", [], items, ttl, nodeID, now⟩

/-- `Get` at the time `now`. -/
def get (fsm : Data) (now : ℤ) (key : String) : Except GoError GoString :=
  found (Storage.get fsm now key)

/-- `GetMultiple` at the time `now`. -/
def getMultiple (fsm : Data) (now : ℤ) (keys : List String) : GoMap String GoString :=
  GoMap.collect (Storage.get fsm now) keys ∅

end RaftStorage

section

variable {w : Write} {order : List (String × GoString)} (now : ℤ)

theorem lookup_local_write (data : Data) (horder : order.Perm w.items.items) :
  (LocalStorage.write data now order w).lookup = Expiring.write (w.effect now) data.lookup
  := by
  funext k
  cases w with
  | set key value ttl =>
    rw [LocalStorage.write, LocalStorage.set, GoMap.lookup_insert_eq_ite, Expiring.write,
      Write.effect]
    split <;> rfl
  | setMultiple items ttl =>
    have hset := GoMap.lookup_setAll_map (fun value => StorageItem.mk value now ttl) horder data k
    rw [LocalStorage.write, LocalStorage.setMultiple_eq_setAll, hset, Expiring.write, Write.effect,
      Write.items]
    cases items.lookup k with
    | none => rfl
    | some value => rfl
  | delete key =>
    rw [LocalStorage.write, LocalStorage.delete, GoMap.lookup_erase_eq_ite, Expiring.write,
      Write.effect]
    split <;> rfl

theorem effect_command (nodeID : String) (w : Write) (key : String)
    (before : Option StorageItem) :
  (RaftStorage.command nodeID now w).effect key before = (w.effect now key).getD before
  := by
  cases w with
  | set key' value ttl =>
    by_cases h : key = key'
    · simp [RaftStorage.command, RaftCommand.effect, Write.effect, RaftCommand.item, h]
    · simp [RaftStorage.command, RaftCommand.effect, Write.effect, h]
  | setMultiple items ttl =>
    cases h : items.lookup key with
    | none => simp [RaftStorage.command, RaftCommand.effect, Write.effect, h]
    | some value =>
      simp [RaftStorage.command, RaftCommand.effect, Write.effect, RaftCommand.item, h]
  | delete key' =>
    by_cases h : key = key'
    · simp [RaftStorage.command, RaftCommand.effect, Write.effect, h]
    · simp [RaftStorage.command, RaftCommand.effect, Write.effect, h]

theorem lookup_applyData_command (nodeID : String) (fsm : Data)
    (horder : order.Perm w.items.items) :
  (applyData fsm (RaftStorage.command nodeID now w) order).lookup
    = Expiring.write (w.effect now) fsm.lookup
  := by
  have hitems : (RaftStorage.command nodeID now w).items = w.items := by
    cases w with
    | set key value ttl => rfl
    | setMultiple items ttl => rfl
    | delete key => rfl
  rw [← hitems] at horder
  funext k
  rw [lookup_applyData horder, effect_command]
  rfl

theorem lookup_cleanup (fsm : Data) (key : String) :
  (cleanup fsm key).lookup = Expiring.drop fsm.lookup key
  := by
  funext k
  rw [cleanup, GoMap.lookup_erase_eq_ite, Expiring.drop, Function.update_apply]

/-- A call that writes leaves in Redis the entries for the items it writes. -/
theorem lookup_redis_write {keyPrefix : String} {m : Redis.Keyspace String}
    {spec : String → Option StorageItem} (horder : order.Perm w.items.items)
    (h : ∀ key, m.lookup (RedisStorage.formatKey keyPrefix key)
      = (spec key).map RedisStorage.entryOf) (key : String) :
  (RedisStorage.write keyPrefix m now order w).lookup (RedisStorage.formatKey keyPrefix key)
    = (Expiring.write (w.effect now) spec key).map RedisStorage.entryOf
  := by
  rw [Expiring.write]
  cases w with
  | set key' value ttl =>
    rw [RedisStorage.write, RedisStorage.set_eq_insert, GoMap.lookup_insert_eq_ite, Write.effect]
    simp only [RedisStorage.formatKey_inj]
    split
    · rfl
    · apply h key
  | setMultiple items ttl =>
    have hset := GoMap.lookup_setAll_map_key
      (g := RedisStorage.formatKey keyPrefix) (fun _ _ => RedisStorage.formatKey_inj.mp)
      (fun value => RedisStorage.entryOf ⟨value, now, ttl⟩) horder m key
    rw [RedisStorage.write, RedisStorage.setMultiple_eq_setAll, hset, Write.effect, Write.items]
    cases items.lookup key with
    | none => apply h key
    | some value => rfl
  | delete key' =>
    rw [RedisStorage.write, RedisStorage.delete, Redis.del, GoMap.lookup_erase_eq_ite,
      Write.effect]
    simp only [RedisStorage.formatKey_inj]
    split
    · rfl
    · apply h key

end

/-! ### The machine -/

/-- The clock, the three storages, the clean-ups spawned at the state machine and not run yet,
and the last item written under every key. -/
structure Trio where
  now : ℤ
  localData : Data
  fsm : Data
  pending : List String
  redis : Redis.Keyspace String
  written : String → Option StorageItem

/-- What can happen: a call that writes, each storage visiting the items in its own order; a
call that reads; a clean-up runs; or time passes. -/
inductive TrioAction where
  | write (w : Write) (localOrder raftOrder redisOrder : List (String × GoString))
  | get (key : String)
  | getMultiple (keys : List String)
  | cleanup (key : String)
  | tick (d : ℕ)

namespace Trio

/-- Empty storages. -/
def init (now : ℤ) : Trio := ⟨now, ∅, ∅, [], ∅, fun _ => none⟩

section

variable (keyPrefix nodeID : String)

/-- One step. -/
def step (s : Trio) : TrioAction → Option Trio
  | .write w localOrder raftOrder redisOrder =>
    if localOrder.Perm w.items.items ∧ raftOrder.Perm w.items.items ∧
        redisOrder.Perm w.items.items then
      some { s with
             localData := LocalStorage.write s.localData s.now localOrder w
             fsm := applyData s.fsm (RaftStorage.command nodeID s.now w) raftOrder
             redis := RedisStorage.write keyPrefix s.redis s.now redisOrder w
             written := Expiring.write (w.effect s.now) s.written }
    else none
  | .get key =>
    some { s with
           localData := (LocalStorage.get s.localData s.now key).2
           pending := s.pending ++ [key].filter (getSpawns s.fsm s.now) }
  | .getMultiple keys =>
    some { s with
           localData := (LocalStorage.getMultiple s.localData s.now keys).2
           pending := s.pending ++ keys.filter (getSpawns s.fsm s.now) }
  | .cleanup key =>
    if key ∈ s.pending then
      some { s with
             fsm := cleanup s.fsm key
             pending := s.pending.erase key }
    else none
  | .tick d => some { s with now := s.now + d }

/-- The machine of the three storages. -/
def machine : Machine Trio TrioAction := ⟨step keyPrefix nodeID⟩

/-- The three storages answer a call that reads alike. -/
def Agrees (s : Trio) : TrioAction → Prop
  | .get key =>
    (LocalStorage.get s.localData s.now key).1 = RaftStorage.get s.fsm s.now key ∧
      RaftStorage.get s.fsm s.now key = RedisStorage.get keyPrefix s.redis s.now key
  | .getMultiple keys =>
    ∀ key,
      (LocalStorage.getMultiple s.localData s.now keys).1.lookup key
        = (RaftStorage.getMultiple s.fsm s.now keys).lookup key ∧
      (RaftStorage.getMultiple s.fsm s.now keys).lookup key
        = (RedisStorage.getMultiple keyPrefix s.redis s.now keys).lookup key
  | _ => True

end

/-- The item last written under a key has expired if Redis does not keep it any longer, and
otherwise the state machine still has it. -/
def Settled (s : Trio) (key : String) : Prop :=
  ∀ item, s.written key = some item →
    item.isExpired s.now = RedisStorage.isGone item s.now ∧
      (item.isExpired s.now = false → s.fsm.lookup key ≠ none)

/-- The keys a call reads are settled. -/
def ReadsSettled (s : Trio) : TrioAction → Prop
  | .get key => Settled s key
  | .getMultiple keys => ∀ key ∈ keys, Settled s key
  | _ => True

/-! ### Refinement -/

/-- The local storage has the items written but for those expired, the state machine has
nothing else, and Redis has the entries for them. -/
structure Refines (keyPrefix : String) (s : Trio) : Prop where
  upTo : Expiring.UpTo (fun item => item.isExpired s.now) s.localData.lookup s.written
  within : Expiring.Within s.fsm.lookup s.written
  redis : ∀ key, s.redis.lookup (RedisStorage.formatKey keyPrefix key)
    = (s.written key).map RedisStorage.entryOf

theorem refines_init (keyPrefix : String) (now : ℤ) :
  Refines keyPrefix (init now)
  := by
  constructor
  · intro key
    apply Or.inl rfl
  · intro key
    apply Or.inl rfl
  · intro key
    rfl

/-- Every step keeps the refinement. -/
theorem refines_step {keyPrefix nodeID : String} {s t : Trio} {a : TrioAction}
    (hs : Refines keyPrefix s) (h : step keyPrefix nodeID s a = some t) :
  Refines keyPrefix t
  := by
  cases a with
  | write w localOrder raftOrder redisOrder =>
    obtain ⟨⟨hlocal, hraft, hredis⟩, ⟨⟩⟩ := Option.ite_none_right_eq_some.mp h
    constructor
    · dsimp only
      rw [lookup_local_write s.now s.localData hlocal]
      apply hs.upTo.write
    · dsimp only
      rw [lookup_applyData_command s.now nodeID s.fsm hraft]
      apply hs.within.write
    · apply lookup_redis_write s.now hredis hs.redis
  | get key =>
    cases h
    exact ⟨LocalStorage.upTo_get hs.upTo key, hs.within, hs.redis⟩
  | getMultiple keys =>
    cases h
    exact ⟨(LocalStorage.getMultiple_eq keys hs.upTo ∅).2, hs.within, hs.redis⟩
  | cleanup key =>
    obtain ⟨-, ⟨⟩⟩ := Option.ite_none_right_eq_some.mp h
    refine ⟨hs.upTo, ?_, hs.redis⟩
    dsimp only
    rw [lookup_cleanup]
    apply hs.within.drop
  | tick d =>
    cases h
    refine ⟨hs.upTo.mono ?_, hs.within, hs.redis⟩
    intro item hexpired
    apply StorageItem.isExpired_mono _ hexpired
    dsimp only
    omega

/-! ### Answers -/

variable {keyPrefix : String} {s : Trio}

/-- What Redis answers for the item last written. -/
theorem redis_get_eq (hs : Refines keyPrefix s) (key : String) :
  Redis.get s.redis s.now (RedisStorage.formatKey keyPrefix key)
    = (s.written key).bind
      (fun item => if RedisStorage.isGone item s.now then none else some item.value)
  := by
  rw [Redis.get, hs.redis key]
  rcases s.written key with _ | item
  · rfl
  · rw [Option.map_some, Option.bind_some, Option.bind_some, RedisStorage.gone_entryOf]
    rfl

/-- The three storages read the same under a key exactly if the key is settled. -/
theorem settled_iff (hs : Refines keyPrefix s) (key : String) :
  Settled s key ↔
    readValue s.written s.now key = get s.fsm s.now key ∧
      get s.fsm s.now key
        = Redis.get s.redis s.now (RedisStorage.formatKey keyPrefix key)
  := by
  have hwithin : s.fsm.lookup key = none ∨ s.fsm.lookup key = s.written key := hs.within key
  rw [redis_get_eq hs, Settled, get, readValue, Expiring.read]
  rcases hitem : s.written key with _ | item
  · rw [hitem, or_self] at hwithin
    simp [hwithin]
  · rw [hitem] at hwithin
    -- the two clocks decide, and whether the item is still there
    cases hexpired : item.isExpired s.now <;> cases hgone : RedisStorage.isGone item s.now <;>
      obtain hfsm | hfsm := hwithin <;> simp [hexpired, hgone, hfsm, Option.filter_some]

/-- A call is answered alike exactly if the keys it reads are settled. -/
theorem agrees_iff_readsSettled (hs : Refines keyPrefix s) (a : TrioAction) :
  Agrees keyPrefix s a ↔ ReadsSettled s a
  := by
  cases a with
  | get key =>
    rw [Agrees, ReadsSettled, settled_iff hs, LocalStorage.result_get, RaftStorage.get,
      RedisStorage.get, found_inj, found_inj, readValue, hs.upTo.read_eq, ← readValue]
  | getMultiple keys =>
    rw [Agrees, ReadsSettled, LocalStorage.getMultiple,
      (LocalStorage.getMultiple_eq keys hs.upTo ∅).1]
    apply forall_congr'
    intro key
    rw [RaftStorage.getMultiple, RedisStorage.getMultiple, GoMap.lookup_collect,
      GoMap.lookup_collect, GoMap.lookup_collect]
    by_cases hkey : key ∈ keys
    · simp only [hkey, if_true, forall_true_left, settled_iff hs, AList.lookup_empty,
        Option.or_none]
    · simp [hkey]
  | write w localOrder raftOrder redisOrder => rfl
  | cleanup key => rfl
  | tick d => rfl

/-- The three storages answer every call that reads alike exactly if every key is settled when
it is read. -/
theorem answers_agree_iff
    (keyPrefix nodeID : String) (now : ℤ) (actions : List TrioAction) :
  (machine keyPrefix nodeID).Meets (Agrees keyPrefix) (init now) actions ↔
    (machine keyPrefix nodeID).Meets ReadsSettled (init now) actions
  := by
  apply Machine.meets_congr (J := Refines keyPrefix) _ _ (refines_init keyPrefix now)
  · intro s a t
    apply refines_step
  · intro s a hs
    apply agrees_iff_readsSettled hs

/-! ### Lifetimes of whole seconds -/

/-- The lifetime of a call that writes items. -/
def ttlOf : Write → ℤ
  | .set _ _ ttl => ttl
  | .setMultiple _ ttl => ttl
  | .delete _ => 0

/-- Items are written with lifetimes of whole seconds, and a clean-up finds no fresh item. -/
def Careful (s : Trio) : TrioAction → Prop
  | .write w _ _ _ => RedisStorage.WholeSeconds (ttlOf w)
  | .cleanup key => ∀ item, s.fsm.lookup key = some item → item.isExpired s.now = true
  | _ => True

/-- The items written have lifetimes of whole seconds, and the state machine has them, but for
those expired. -/
structure Careful.Kept (s : Trio) : Prop where
  whole : ∀ key item, s.written key = some item → RedisStorage.WholeSeconds item.ttl
  upTo : Expiring.UpTo (fun item => item.isExpired s.now) s.fsm.lookup s.written

theorem ttl_of_effect {w : Write} {now : ℤ} {key : String} {item : StorageItem}
    (h : w.effect now key = some (some item)) :
  item.ttl = ttlOf w
  := by
  cases w with
  | set key' value ttl =>
    obtain ⟨-, ⟨⟩⟩ := Option.ite_none_right_eq_some.mp h
    rfl
  | setMultiple items ttl =>
    obtain ⟨value, -, ⟨⟩⟩ := Option.map_eq_some_iff.mp h
    rfl
  | delete key' =>
    obtain ⟨-, ⟨⟩⟩ := Option.ite_none_right_eq_some.mp h

theorem kept_step {keyPrefix nodeID : String} {s t : Trio} {a : TrioAction}
    (hs : Careful.Kept s) (ha : Careful s a) (h : step keyPrefix nodeID s a = some t) :
  Careful.Kept t
  := by
  cases a with
  | write w localOrder raftOrder redisOrder =>
    obtain ⟨⟨-, hraft, -⟩, ⟨⟩⟩ := Option.ite_none_right_eq_some.mp h
    constructor
    · intro key item hitem
      dsimp only at hitem
      rw [Expiring.write] at hitem
      rcases heffect : w.effect s.now key with _ | entry
      · rw [heffect] at hitem
        apply hs.whole key item hitem
      · rw [heffect] at hitem
        obtain rfl : entry = some item := hitem
        rw [ttl_of_effect heffect]
        apply ha
    · dsimp only
      rw [lookup_applyData_command s.now nodeID s.fsm hraft]
      apply hs.upTo.write
  | get key =>
    cases h
    exact ⟨hs.whole, hs.upTo⟩
  | getMultiple keys =>
    cases h
    exact ⟨hs.whole, hs.upTo⟩
  | cleanup key =>
    obtain ⟨-, ⟨⟩⟩ := Option.ite_none_right_eq_some.mp h
    refine ⟨hs.whole, ?_⟩
    dsimp only
    rw [lookup_cleanup]
    rcases hitem : s.fsm.lookup key with _ | item
    · have hsame : Expiring.drop s.fsm.lookup key = s.fsm.lookup :=
        Function.update_eq_self_iff.mpr hitem.symm
      rw [hsame]
      apply hs.upTo
    · apply hs.upTo.drop hitem (ha item hitem)
  | tick d =>
    cases h
    refine ⟨hs.whole, hs.upTo.mono ?_⟩
    intro item hexpired
    apply StorageItem.isExpired_mono _ hexpired
    dsimp only
    omega

theorem Careful.Kept.settled {s : Trio} (hs : Careful.Kept s) (key : String) :
  Settled s key
  := by
  intro item hitem
  use RedisStorage.isExpired_eq_isGone (hs.whole key item hitem) s.now
  intro hfresh hnone
  obtain heq | ⟨-, item', hitem', hexpired⟩ := hs.upTo key
  · have heq : s.fsm.lookup key = s.written key := heq
    rw [hnone, hitem] at heq
    cases heq
  · obtain rfl := Option.some.inj (hitem.symm.trans hitem')
    dsimp only at hexpired
    rw [hfresh] at hexpired
    cases hexpired

/-- With lifetimes of whole seconds, and clean-ups that find no fresh items, the three
storages answer alike. -/
theorem answers_agree_of_careful
    (keyPrefix nodeID : String) (now : ℤ) (actions : List TrioAction)
    (h : (machine keyPrefix nodeID).Meets Careful (init now) actions) :
  (machine keyPrefix nodeID).Meets (Agrees keyPrefix) (init now) actions
  := by
  have hinit : Careful.Kept (init now) := by
    constructor
    · rintro key item ⟨⟩
    · intro key
      apply Or.inl rfl
  have halways := h.always
    (fun s a t (hs : Careful.Kept s ∧ Refines keyPrefix s) ha ht =>
      ⟨kept_step hs.1 ha ht, refines_step hs.2 ht⟩)
    ⟨hinit, refines_init keyPrefix now⟩
  apply halways.meets
  rintro s a ⟨hkept, hrefines⟩
  rw [agrees_iff_readsSettled hrefines]
  cases a with
  | get key => apply hkept.settled
  | getMultiple keys =>
    intro key _
    apply hkept.settled
  | write w localOrder raftOrder redisOrder => trivial
  | cleanup key => trivial
  | tick d => trivial

/-! ### A lifetime that is not of whole seconds -/

/-- A key set for 1.5 s is read after 1.2 s: Redis has dropped it, the others have not. -/
theorem dropped_by_redis_only :
  ∃ s, (machine "vm:" "n1").run (init 0)
      [.write (.set "k" [1] 1500000000) [] [] [], .tick 1200000000] = some s ∧
    (LocalStorage.get s.localData s.now "k").1 = .ok [1] ∧
    RaftStorage.get s.fsm s.now "k" = .ok [1] ∧
    RedisStorage.get "vm:" s.redis s.now "k" = .error (.app AppError.keyNotFound)
  := by
  refine ⟨_, rfl, ?_⟩
  decide +kernel

end Trio

end Storage

end VmProxyAuth
