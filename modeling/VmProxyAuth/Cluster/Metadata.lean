import VmProxyAuth.Cluster.Delegate
import VmProxyAuth.Lib.JsonText

/-!
# The metadata a node advertises

A node advertises its metadata as JSON text, cut off at the limit that the member list gives.
What others read from the text is the metadata of the node, or nothing at all if the text was cut
off.
-/

namespace VmProxyAuth

namespace Cluster

open JsonText

/-! ### The metadata of a node -/

/-- `NodeMetadata`, with the fields the delegate does not read. -/
@[ext]
structure AdvertisedMetadata extends NodeMetadata where
  httpAddress : String
  region : String
  zone : String
  version : String
  extraData : GoMap String String

namespace AdvertisedMetadata

/-- The zero value. -/
def zero : AdvertisedMetadata := ⟨⟨"", "", ""⟩, "", "", "", "", ∅⟩

/-- An entry of the configured metadata: the loop of `CreateNodeMetadata`. -/
def apply (m : AdvertisedMetadata) (e : String × String) : AdvertisedMetadata :=
  if e.1 = "region" then { m with region := e.2 }
  else if e.1 = "zone" then { m with zone := e.2 }
  else if e.1 = "version" then { m with version := e.2 }
  else if e.1 = "role" then { m with role := e.2 }
  else { m with extraData := m.extraData.insert e.1 e.2 }

end AdvertisedMetadata

/-- `CreateNodeMetadata`. -/
def createNodeMetadata (nodeID httpAddr raftAddr : String) (metadata : GoMap String String) :
    AdvertisedMetadata :=
  metadata.items.foldl AdvertisedMetadata.apply
    ⟨⟨nodeID, raftAddr, peerRole⟩, httpAddr, "", "", "", ∅⟩

/-! ### Its text -/

/-- A member of an object that is left out if it is empty. -/
def omitEmpty {α : Type} (value : String) (member : α) : List α :=
  if value = "" then [] else [member]

/-- The entries of a map, sorted by their keys. -/
def sortedItems (m : GoMap String String) : List (String × String) :=
  m.items.mergeSort (fun e e' => decide (str e.1 ≤ str e'.1))

/-- A map as an object. -/
def encodeMap (m : GoMap String String) : GoString :=
  encodeObject ((sortedItems m).map (fun e => (e.1, encodeString e.2)))

namespace AdvertisedMetadata

/-- The members of the object. -/
def members (m : AdvertisedMetadata) : List (String × GoString) :=
  [("node_id", encodeString m.nodeID), ("http_address", encodeString m.httpAddress),
      ("raft_address", encodeString m.raftAddress), ("role", encodeString m.role)]
    ++ omitEmpty m.region ("region", encodeString m.region)
    ++ omitEmpty m.zone ("zone", encodeString m.zone)
    ++ omitEmpty m.version ("version", encodeString m.version)
    ++ if m.extraData.items = [] then [] else [("extra_data", encodeMap m.extraData)]

/-- `Marshal`, which does not fail. -/
def marshal (m : AdvertisedMetadata) : GoString := encodeObject m.members

end AdvertisedMetadata

/-- `NodeMeta`, of a delegate with or without metadata; nothing is returned if the slice
expression panics. -/
def nodeMeta (nodeMetadata : Option AdvertisedMetadata) (limit : ℤ) : Option GoString :=
  match nodeMetadata with
  | none => some []
  | some m =>
    if limit < m.marshal.length then
      if limit < 0 then none else some (m.marshal.take limit.toNat)
    else some m.marshal

/-! ### Reading the text -/

/-- The fields of `NodeMetadata`. -/
inductive MetadataField where
  | nodeID
  | httpAddress
  | raftAddress
  | role
  | region
  | zone
  | version
  | extraData
  deriving DecidableEq

namespace MetadataField

/-- The name of a field in JSON. -/
def name : MetadataField → String
  | .nodeID => "node_id"
  | .httpAddress => "http_address"
  | .raftAddress => "raft_address"
  | .role => "role"
  | .region => "region"
  | .zone => "zone"
  | .version => "version"
  | .extraData => "extra_data"

def all : List MetadataField :=
  [.nodeID, .httpAddress, .raftAddress, .role, .region, .zone, .version, .extraData]

/-- Characters that differ by case only.  Of those beyond ASCII, only the long s and the Kelvin sign
differ by case from one of ASCII. -/
def foldChar (c : Char) : Char :=
  if c = Char.ofNat 0x17f then 'S' else if c = Char.ofNat 0x212a then 'K' else c.toUpper

def foldName (name : String) : List Char := name.toList.map foldChar

/-- The field with a name, or else with a name that differs by case only. -/
def find (key : String) : Option MetadataField :=
  (all.find? (fun f => f.name == key)).or (all.find? (fun f => foldName f.name == foldName key))

end MetadataField

/-- A value is read into a string; `null` leaves it as it is. -/
def storeString (old : String) : Value → Option String
  | .null => some old
  | .string s => some s
  | _ => none

/-- A value is read into a map. -/
def storeMap (old : GoMap String String) : Value → Option (GoMap String String)
  | .null => some ∅
  | .object members =>
    members.foldlM (fun m e => (storeString "" e.2).map (fun s => m.insert e.1 s)) old
  | _ => none

namespace AdvertisedMetadata

/-- A value is read into a field. -/
def store (m : AdvertisedMetadata) (f : MetadataField) (v : Value) : Option AdvertisedMetadata :=
  match f with
  | .nodeID => (storeString m.nodeID v).map (fun s => { m with nodeID := s })
  | .httpAddress => (storeString m.httpAddress v).map (fun s => { m with httpAddress := s })
  | .raftAddress => (storeString m.raftAddress v).map (fun s => { m with raftAddress := s })
  | .role => (storeString m.role v).map (fun s => { m with role := s })
  | .region => (storeString m.region v).map (fun s => { m with region := s })
  | .zone => (storeString m.zone v).map (fun s => { m with zone := s })
  | .version => (storeString m.version v).map (fun s => { m with version := s })
  | .extraData => (storeMap m.extraData v).map (fun s => { m with extraData := s })

/-- A member of an object is read; unknown members are skipped. -/
def storeMember (m : AdvertisedMetadata) (e : String × Value) : Option AdvertisedMetadata :=
  match MetadataField.find e.1 with
  | some f => m.store f e.2
  | none => some m

/-- A value is read into the zero value. -/
def decode : Value → Option AdvertisedMetadata
  | .null => some zero
  | .object members => members.foldlM storeMember zero
  | _ => none

/-- `json.Unmarshal`. -/
def unmarshal (data : GoString) : Option AdvertisedMetadata := (parse data).bind decode

end AdvertisedMetadata

/-- What bytes are to `UnmarshalNodeMetadata`. -/
def readMeta (data : GoString) : NodeMeta :=
  if data = [] then .empty
  else
    match AdvertisedMetadata.unmarshal data with
    | some m => .metadata m.toNodeMetadata
    | none => .malformed

/-! ### The configured metadata -/

/-- Whether an entry of the configured metadata is kept as extra data. -/
def isExtra (e : String × String) : Bool :=
  !(e.1 == "region" || e.1 == "zone" || e.1 == "version" || e.1 == "role")

namespace AdvertisedMetadata

/-- What an entry sets, field by field. -/
theorem apply_eq (m : AdvertisedMetadata) (e : String × String) :
  m.apply e =
    ⟨⟨m.nodeID, m.raftAddress, if e.1 = "role" then e.2 else m.role⟩, m.httpAddress,
      if e.1 = "region" then e.2 else m.region, if e.1 = "zone" then e.2 else m.zone,
      if e.1 = "version" then e.2 else m.version,
      if isExtra e then m.extraData.insert e.1 e.2 else m.extraData⟩
  := by
  obtain ⟨key, value⟩ := e
  by_cases hregion : key = "region"
  · subst hregion
    rfl
  by_cases hzone : key = "zone"
  · subst hzone
    rfl
  by_cases hversion : key = "version"
  · subst hversion
    rfl
  by_cases hrole : key = "role"
  · subst hrole
    rfl
  have hextra : isExtra (key, value) = true := by
    simp [isExtra, hregion, hzone, hversion, hrole]
  simp only [apply, if_neg hregion, if_neg hzone, if_neg hversion, if_neg hrole, if_pos hextra]

end AdvertisedMetadata

theorem extraData_foldl_apply (l : List (String × String)) (m : AdvertisedMetadata) :
  (l.foldl AdvertisedMetadata.apply m).extraData = m.extraData.setAll (l.filter isExtra)
  := by
  induction l generalizing m with
  | nil => rfl
  | cons e l ih =>
    rw [List.foldl_cons, ih, m.apply_eq]
    cases hextra : isExtra e with
    | false => rw [List.filter_cons_of_neg (by simp [hextra]), if_neg Bool.false_ne_true]
    | true => rw [List.filter_cons_of_pos hextra, if_pos rfl, GoMap.setAll, GoMap.setAll,
        List.foldl_cons]

theorem addresses_foldl_apply (l : List (String × String)) (m : AdvertisedMetadata) :
  (l.foldl AdvertisedMetadata.apply m).nodeID = m.nodeID ∧
    (l.foldl AdvertisedMetadata.apply m).raftAddress = m.raftAddress ∧
    (l.foldl AdvertisedMetadata.apply m).httpAddress = m.httpAddress
  := by
  induction l generalizing m with
  | nil => exact ⟨rfl, rfl, rfl⟩
  | cons e l ih =>
    have hrest := ih (m.apply e)
    rw [m.apply_eq] at hrest
    rw [List.foldl_cons, m.apply_eq]
    exact hrest

section

variable (nodeID httpAddr raftAddr : String) (metadata : GoMap String String)

/-- The value configured under a key. -/
def configured (key default : String) : String := (metadata.lookup key).getD default

/-- The configured extra data. -/
def extras : List (String × String) := metadata.items.filter isExtra

/-- A field that the entries set by one key. -/
theorem configured_of_apply (key : String) (field : AdvertisedMetadata → String)
    (h : ∀ m e, field (m.apply e) = if e.1 = key then e.2 else field m) (m : AdvertisedMetadata) :
  field (metadata.items.foldl AdvertisedMetadata.apply m) = configured metadata key (field m)
  := GoMap.foldl_items_of_key h metadata m

/-- The metadata that is made from the configuration. -/
theorem createNodeMetadata_eq :
  createNodeMetadata nodeID httpAddr raftAddr metadata =
    ⟨⟨nodeID, raftAddr, configured metadata "role" peerRole⟩, httpAddr,
      configured metadata "region" "", configured metadata "zone" "",
      configured metadata "version" "", (∅ : GoMap String String).setAll (extras metadata)⟩
  := by
  obtain ⟨hnodeID, hraftAddress, hhttpAddress⟩ := addresses_foldl_apply metadata.items
    ⟨⟨nodeID, raftAddr, peerRole⟩, httpAddr, "", "", "", ∅⟩
  apply AdvertisedMetadata.ext
  · apply hnodeID
  · apply hraftAddress
  · exact configured_of_apply metadata "role" (·.role) (fun m e => by rw [m.apply_eq]) _
  · apply hhttpAddress
  · exact configured_of_apply metadata "region" (·.region) (fun m e => by rw [m.apply_eq]) _
  · exact configured_of_apply metadata "zone" (·.zone) (fun m e => by rw [m.apply_eq]) _
  · exact configured_of_apply metadata "version" (·.version) (fun m e => by rw [m.apply_eq]) _
  · apply extraData_foldl_apply

end

/-! ### The text is read as it was written -/

theorem map_omitEmpty {α β : Type} (f : α → β) (value : String) (member : α) :
  (omitEmpty value member).map f = omitEmpty value (f member)
  := by
  rw [omitEmpty, omitEmpty]
  split_ifs
  · rfl
  · rfl

theorem forall_mem_omitEmpty {α : Type} {p : α → Prop} {value : String} {member : α}
    (h : p member) :
  ∀ a ∈ omitEmpty value member, p a
  := by
  intro a ha
  rw [omitEmpty] at ha
  split_ifs at ha
  · cases ha
  · rw [List.mem_singleton.mp ha]
    apply h

/-- A member with a string, its text and what that is read as. -/
def part (key value : String) : String × GoString × Value :=
  (key, encodeString value, .string value)

theorem reads_part (key value : String) :
  Reads 0 (part key value).2.1 (part key value).2.2
  := Reads.string value

/-- What the text of a map is read as. -/
def mapValue (m : GoMap String String) : Value :=
  .object ((sortedItems m).map (fun e => (e.1, .string e.2)))

theorem reads_encodeMap (m : GoMap String String) :
  Reads 1 (encodeMap m) (mapValue m)
  := by
  have hparts : ∀ e ∈ (sortedItems m).map (fun e => part e.1 e.2), Reads 0 e.2.1 e.2.2 := by
    intro e he
    obtain ⟨e, -, rfl⟩ := List.mem_map.mp he
    apply reads_part
  have hobject := Reads.object hparts
  rw [List.map_map, List.map_map] at hobject
  exact hobject

namespace AdvertisedMetadata

/-- The members of the object, with what their texts are read as. -/
def parts (m : AdvertisedMetadata) : List (String × GoString × Value) :=
  [part "node_id" m.nodeID, part "http_address" m.httpAddress, part "raft_address" m.raftAddress,
      part "role" m.role]
    ++ omitEmpty m.region (part "region" m.region)
    ++ omitEmpty m.zone (part "zone" m.zone)
    ++ omitEmpty m.version (part "version" m.version)
    ++ if m.extraData.items = [] then []
      else [("extra_data", encodeMap m.extraData, mapValue m.extraData)]

theorem members_eq (m : AdvertisedMetadata) :
  m.members = m.parts.map (fun e => (e.1, e.2.1))
  := by
  simp only [members, parts, List.map_append, map_omitEmpty]
  congr 1
  split_ifs
  · rfl
  · rfl

theorem reads_of_mem_parts {m : AdvertisedMetadata} {e : String × GoString × Value}
    (he : e ∈ m.parts) :
  Reads 1 e.2.1 e.2.2
  := by
  have hpart : ∀ key value, Reads 1 (part key value).2.1 (part key value).2.2 := by
    intro key value
    apply (reads_part key value).mono (by decide)
  revert e
  simp only [parts, List.forall_mem_append, List.forall_mem_cons]
  refine ⟨⟨⟨⟨⟨hpart _ _, hpart _ _, hpart _ _, hpart _ _, List.forall_mem_nil _⟩,
    forall_mem_omitEmpty (hpart _ _)⟩, forall_mem_omitEmpty (hpart _ _)⟩,
    forall_mem_omitEmpty (hpart _ _)⟩, ?_⟩
  split_ifs
  · apply List.forall_mem_nil
  · rw [List.forall_mem_singleton]
    apply reads_encodeMap

theorem parse_marshal (m : AdvertisedMetadata) :
  parse m.marshal = some (.object (m.parts.map (fun e => (e.1, e.2.2))))
  := by
  have hreads : Reads 2 m.marshal (.object (m.parts.map (fun e => (e.1, e.2.2)))) := by
    rw [marshal, members_eq]
    apply Reads.object
    intro e he
    apply reads_of_mem_parts he
  apply parse_of_reads hreads (by decide)

end AdvertisedMetadata

theorem storeMap_mapValue (m : GoMap String String) :
  storeMap ∅ (mapValue m) = some ((∅ : GoMap String String).setAll (sortedItems m))
  := by
  have hloop : ∀ (l : List (String × String)) (old : GoMap String String),
      storeMap old (.object (l.map (fun e => (e.1, .string e.2)))) = some (old.setAll l) := by
    intro l
    induction l with
    | nil =>
      intro old
      rfl
    | cons e l ih =>
      intro old
      exact ih (old.insert e.1 e.2)
  apply hloop

namespace AdvertisedMetadata

theorem foldlM_omitEmpty {m m' : AdvertisedMetadata} {key value : String}
    (hstore : m.storeMember (key, .string value) = some m') (hempty : value = "" → m' = m) :
  ((omitEmpty value (part key value)).map (fun e => (e.1, e.2.2))).foldlM storeMember m = some m'
  := by
  rw [omitEmpty]
  split_ifs with h
  · rw [hempty h]
    rfl
  · rw [List.map_singleton, List.foldlM_cons, part, hstore]
    rfl

/-- The metadata is read as it was written, with the extra data in the order of its keys. -/
theorem decode_parts (m : AdvertisedMetadata) :
  decode (.object (m.parts.map (fun e => (e.1, e.2.2))))
    = some { m with extraData := (∅ : GoMap String String).setAll (sortedItems m.extraData) }
  := by
  obtain ⟨⟨nodeID, raftAddress, role⟩, httpAddress, region, zone, version, extraData⟩ := m
  have hstrings : ([part "node_id" nodeID, part "http_address" httpAddress,
      part "raft_address" raftAddress, part "role" role].map (fun e => (e.1, e.2.2))).foldlM
        storeMember zero = some ⟨⟨nodeID, raftAddress, role⟩, httpAddress, "", "", "", ∅⟩ := rfl
  have hregion : ((omitEmpty region (part "region" region)).map (fun e => (e.1, e.2.2))).foldlM
      storeMember ⟨⟨nodeID, raftAddress, role⟩, httpAddress, "", "", "", ∅⟩
        = some ⟨⟨nodeID, raftAddress, role⟩, httpAddress, region, "", "", ∅⟩ :=
    foldlM_omitEmpty rfl (fun h => by rw [h])
  have hzone : ((omitEmpty zone (part "zone" zone)).map (fun e => (e.1, e.2.2))).foldlM
      storeMember ⟨⟨nodeID, raftAddress, role⟩, httpAddress, region, "", "", ∅⟩
        = some ⟨⟨nodeID, raftAddress, role⟩, httpAddress, region, zone, "", ∅⟩ :=
    foldlM_omitEmpty rfl (fun h => by rw [h])
  have hversion : ((omitEmpty version (part "version" version)).map (fun e => (e.1, e.2.2))).foldlM
      storeMember ⟨⟨nodeID, raftAddress, role⟩, httpAddress, region, zone, "", ∅⟩
        = some ⟨⟨nodeID, raftAddress, role⟩, httpAddress, region, zone, version, ∅⟩ :=
    foldlM_omitEmpty rfl (fun h => by rw [h])
  simp only [decode, parts, List.map_append, List.foldlM_append, hstrings, hregion, hzone, hversion,
    Option.bind_eq_bind, Option.bind_some]
  split_ifs with hextra
  · have hsorted : sortedItems extraData = [] := by
      rw [sortedItems, hextra, List.mergeSort_nil]
    rw [hsorted]
    rfl
  · have hstore := storeMap_mapValue extraData
    have hextraData :
        storeMember ⟨⟨nodeID, raftAddress, role⟩, httpAddress, region, zone, version, ∅⟩
            ("extra_data", mapValue extraData)
          = some ⟨⟨nodeID, raftAddress, role⟩, httpAddress, region, zone, version,
            (∅ : GoMap String String).setAll (sortedItems extraData)⟩ :=
      congrArg (Option.map _) hstore
    rw [List.map_singleton, List.foldlM_cons, hextraData]
    rfl

/-- What is written is read. -/
theorem unmarshal_marshal (m : AdvertisedMetadata) :
  unmarshal m.marshal
    = some { m with extraData := (∅ : GoMap String String).setAll (sortedItems m.extraData) }
  := by
  rw [unmarshal, parse_marshal, Option.bind_some, decode_parts]

/-- What is cut off is not read. -/
theorem unmarshal_take (m : AdvertisedMetadata) {n : ℕ} (hn : n < m.marshal.length) :
  unmarshal (m.marshal.take n) = none
  := by
  rw [unmarshal, marshal, parse_take_encodeObject m.parse_marshal hn]
  rfl

end AdvertisedMetadata

/-! ### Its size -/

/-- The size of a member with a string, with the colon and what is behind it. -/
def memberSize (key value : String) : ℕ := stringSize key + stringSize value + 2

/-- The size of a member that is left out if it is empty. -/
def optionalSize (key value : String) : ℕ := if value = "" then 0 else memberSize key value

/-- The size of the extra data, which is left out if there is none. -/
def extraSize (l : List (String × String)) : ℕ :=
  if l = [] then 0
  else stringSize "extra_data" + ((l.map (fun e => memberSize e.1 e.2)).sum + 1) + 2

theorem sum_map_omitEmpty (key value : String) :
  ((omitEmpty value (key, encodeString value)).map
      (fun e : String × GoString => stringSize e.1 + e.2.length + 2)).sum = optionalSize key value
  := by
  rw [omitEmpty, optionalSize]
  split_ifs
  · rfl
  · rw [List.map_singleton, List.sum_singleton, length_encodeString, memberSize]

theorem length_encodeMap {m : GoMap String String} (h : m.items ≠ []) :
  (encodeMap m).length = (m.items.map (fun e => memberSize e.1 e.2)).sum + 1
  := by
  have hperm : (sortedItems m).Perm m.items := List.mergeSort_perm _ _
  have hne : (sortedItems m).map (fun e => (e.1, encodeString e.2)) ≠ [] := by
    intro hnil
    apply h
    rw [List.map_eq_nil_iff.mp hnil] at hperm
    apply hperm.nil_eq.symm
  rw [encodeMap, length_encodeObject hne, List.map_map,
    ← (hperm.map (fun e => memberSize e.1 e.2)).sum_eq]
  congr 3
  funext e
  simp only [Function.comp_apply, length_encodeString, memberSize]

theorem sum_map_extraData {m : GoMap String String} {l : List (String × String)}
    (h : m.items.Perm l) :
  ((if m.items = [] then [] else [("extra_data", encodeMap m)]).map
      (fun e : String × GoString => stringSize e.1 + e.2.length + 2)).sum = extraSize l
  := by
  rw [extraSize]
  by_cases hne : m.items = []
  · rw [hne] at h
    rw [if_pos hne, if_pos h.nil_eq.symm]
    rfl
  · have hl : l ≠ [] := by
      rintro rfl
      apply hne h.eq_nil
    rw [if_neg hne, if_neg hl, List.map_singleton, List.sum_singleton, length_encodeMap hne,
      (h.map (fun e => memberSize e.1 e.2)).sum_eq]

section

variable (nodeID httpAddr raftAddr : String) (metadata : GoMap String String)

theorem perm_extras :
  ((∅ : GoMap String String).setAll (extras metadata)).items.Perm (extras metadata)
  := by
  apply GoMap.perm_items_setAll
  apply (List.filter_sublist.map Prod.fst).nodup metadata.nodup_items_fst

/-- The size of the text, by what is configured. -/
def advertisedSize : ℕ :=
  memberSize "node_id" nodeID + memberSize "http_address" httpAddr
    + memberSize "raft_address" raftAddr
    + memberSize "role" (configured metadata "role" peerRole)
    + optionalSize "region" (configured metadata "region" "")
    + optionalSize "zone" (configured metadata "zone" "")
    + optionalSize "version" (configured metadata "version" "")
    + extraSize (extras metadata) + 1

theorem length_marshal :
  (createNodeMetadata nodeID httpAddr raftAddr metadata).marshal.length
    = advertisedSize nodeID httpAddr raftAddr metadata
  := by
  have hne : ∀ m : AdvertisedMetadata, m.members ≠ [] := fun _ => List.cons_ne_nil _ _
  rw [createNodeMetadata_eq, AdvertisedMetadata.marshal, length_encodeObject (hne _),
    AdvertisedMetadata.members]
  simp only [List.map_append, List.sum_append, sum_map_omitEmpty,
    sum_map_extraData (perm_extras metadata), List.map_cons, List.map_nil, List.sum_cons,
    List.sum_nil, length_encodeString, advertisedSize, memberSize]
  omega

theorem advertisedSize_pos :
  0 < advertisedSize nodeID httpAddr raftAddr metadata
  := by
  apply Nat.succ_pos

/-- The text is no shorter than any of the extra data. -/
theorem stringSize_le_advertisedSize {e : String × String} (he : e ∈ extras metadata) :
  stringSize e.2 ≤ advertisedSize nodeID httpAddr raftAddr metadata
  := by
  have hle : memberSize e.1 e.2 ≤ ((extras metadata).map (fun e => memberSize e.1 e.2)).sum :=
    List.le_sum_of_mem (List.mem_map_of_mem he)
  have hextra : extraSize (extras metadata) = _ := if_neg (List.ne_nil_of_mem he)
  rw [advertisedSize, hextra]
  rw [memberSize] at hle
  omega

/-- Text that is within the limit is read as the metadata. -/
theorem readMeta_marshal :
  readMeta (createNodeMetadata nodeID httpAddr raftAddr metadata).marshal
    = .metadata ⟨nodeID, raftAddr, configured metadata "role" peerRole⟩
  := by
  have hne : (createNodeMetadata nodeID httpAddr raftAddr metadata).marshal ≠ [] :=
    List.cons_ne_nil _ _
  rw [readMeta, if_neg hne, AdvertisedMetadata.unmarshal_marshal, createNodeMetadata_eq]

/-- Text that is cut off is not read, unless nothing is left of it. -/
theorem readMeta_take {m : AdvertisedMetadata} {n : ℕ} (hpos : 0 < n)
    (hn : n < m.marshal.length) :
  readMeta (m.marshal.take n) = .malformed
  := by
  have hne : m.marshal.take n ≠ [] := by
    rw [← List.length_pos_iff, List.length_take]
    omega
  rw [readMeta, if_neg hne, m.unmarshal_take hn]

/-- Longer text is cut off at the limit. -/
theorem nodeMeta_of_lt {m : AdvertisedMetadata} {n : ℕ} (hn : n < m.marshal.length) :
  nodeMeta (some m) n = some (m.marshal.take n)
  := by
  have hlt : (n : ℤ) < m.marshal.length := by omega
  have hneg : ¬ (n : ℤ) < 0 := by omega
  rw [nodeMeta, if_pos hlt, if_neg hneg, Int.toNat_natCast]

/-- The bytes are within the limit, and are empty or are read as the metadata. -/
def Conveys (m : NodeMetadata) (limit : ℤ) (data : GoString) : Prop :=
  data.length ≤ limit ∧ (data = [] ∨ unmarshalNodeMetadata (readMeta data) = .ok m)

/-- The metadata is advertised just if nothing at all may be, or the text is within the limit. -/
theorem advertised_iff (limit : ℤ) :
  (∃ data,
      nodeMeta (some (createNodeMetadata nodeID httpAddr raftAddr metadata)) limit = some data ∧
      Conveys ⟨nodeID, raftAddr, configured metadata "role" peerRole⟩ limit data) ↔
    limit = 0 ∨ advertisedSize nodeID httpAddr raftAddr metadata ≤ limit
  := by
  have hsize := length_marshal nodeID httpAddr raftAddr metadata
  have hpos := advertisedSize_pos nodeID httpAddr raftAddr metadata
  rw [nodeMeta, hsize]
  split_ifs with hlt hneg
  · -- The slice expression panics.
    constructor
    · rintro ⟨data, hdata, -⟩
      cases hdata
    · omega
  · constructor
    · rintro ⟨data, hdata, -, hread⟩
      obtain rfl := Option.some.inj hdata
      left
      by_contra hne
      rw [readMeta_take (by omega) (by omega)] at hread
      rcases hread with hnil | hok
      · have hlength := congrArg List.length hnil
        rw [List.length_take, List.length_nil] at hlength
        omega
      · cases hok
    · rintro (rfl | hle)
      · exact ⟨[], rfl, le_rfl, .inl rfl⟩
      · omega
  · constructor
    · intro _
      right
      omega
    · intro _
      refine ⟨_, rfl, ?_, .inr ?_⟩
      · rw [hsize]
        omega
      · rw [readMeta_marshal]
        rfl

end

/-- With a description of 512 characters, the text is cut off at the 512 bytes that the member list
allows, and others cannot read it. -/
theorem long_description_not_read :
  ∃ data, nodeMeta (some (createNodeMetadata "node-1" "10.0.0.1:8080" "10.0.0.1:9000"
      ((∅ : GoMap String String).insert "description"
        (String.ofList (List.replicate 512 'a'))))) 512 = some data ∧
    data.length = 512 ∧
    unmarshalNodeMetadata (readMeta data)
      = .error (.wrapf "failed to unmarshal node metadata: %w" [] (.library "json"))
  := by
  have hdescription : stringSize (String.ofList (List.replicate 512 'a')) = 514 := by
    rw [stringSize, String.toList_ofList, List.map_replicate, List.sum_replicate]
    rfl
  have hsize := stringSize_le_advertisedSize "node-1" "10.0.0.1:8080" "10.0.0.1:9000"
    ((∅ : GoMap String String).insert "description" (String.ofList (List.replicate 512 'a')))
    (List.mem_singleton_self _)
  rw [hdescription, ← length_marshal] at hsize
  refine ⟨_, nodeMeta_of_lt (n := 512) (by omega), ?_, ?_⟩
  · rw [List.length_take]
    omega
  · rw [readMeta_take (by decide) (by omega)]
    rfl

end Cluster

end VmProxyAuth
