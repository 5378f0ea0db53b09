import VmProxyAuth.Lib.Base64
import VmProxyAuth.Lib.GoMap
import VmProxyAuth.Lib.Utf8

/-!
# JSON values of structs and maps

The part of `encoding/json` that codes structs and maps.  Only the exported fields of a
struct are written and read, those whose name starts with an upper-case letter; a field
that is not read keeps the value it has in the zero struct.
-/

universe u v

/-- A JSON value.  The strings that stand for bytes and for times are kept as such. -/
inductive Json where
  | null
  | number (n : ℤ)
  | string (s : String)
  | bytes (b : GoString)
  | time (t : ℤ)
  | object (members : List (String × Json))

namespace Json

/-- A field of a struct: its name, its value as JSON, and how a JSON value is read into
it. -/
structure Field (α : Type u) where
  name : String
  encode : α → Json
  decode : Json → α → α

variable {α : Type u}

/-- Whether a field is exported. -/
def Field.exported (f : Field α) : Bool := f.name.toList.head?.any Char.isUpper

/-- `json.Marshal` of a struct. -/
def encodeStruct (fields : List (Field α)) (x : α) : Json :=
  .object ((fields.filter Field.exported).map (fun f => (f.name, f.encode x)))

/-- `json.Unmarshal` into the zero struct. -/
def decodeStruct (fields : List (Field α)) (zero : α) : Json → α
  | .object members =>
    (fields.filter Field.exported).foldl
      (fun x f => match members.lookup f.name with
        | some value => f.decode value x
        | none => x)
      zero
  | _ => zero

/-! ### Strings and bytes -/

/-- A string as JSON, which is text. -/
def ofString (s : GoString) : Json := .string (Utf8.toText s)

/-- Bytes as JSON, in base64. -/
def ofBytes (b : GoString) : Json := ofString (Base64.Encoding.std.encode b)

/-- The bytes a JSON value stands for. -/
def toBytes : Json → Option GoString
  | .string s => Base64.Encoding.std.decode (str s)
  | .null => some []
  | _ => none

/-- Bytes are read as they were written. -/
theorem toBytes_ofBytes (b : GoString) :
  toBytes (ofBytes b) = some b
  := by
  have hascii : Utf8.Valid (Base64.Encoding.std.encode b) := by
    apply Utf8.valid_of_ascii
    intro x hx
    apply (Base64.Encoding.encode_ascii _ hx).2
  rw [ofBytes, ofString, toBytes, Utf8.valid_iff.mp hascii, Base64.Encoding.decode_encode]

section

variable {β : Type v}

/-- Reading a number into a field. -/
def readNumber (set : ℤ → β → β) : Json → β → Option β
  | .number n, x => some (set n x)
  | .null, x => some x
  | _, _ => none

/-- Reading a string into a field. -/
def readString (set : String → β → β) : Json → β → Option β
  | .string s, x => some (set s x)
  | .null, x => some x
  | _, _ => none

/-- Reading a time into a field. -/
def readTime (set : ℤ → β → β) : Json → β → Option β
  | .time t, x => some (set t x)
  | .null, x => some x
  | _, _ => none

/-- Reading bytes into a field. -/
def readBytes (set : GoString → β → β) (j : Json) (x : β) : Option β :=
  (toBytes j).map (fun b => set b x)

/-- Reading a map from strings to bytes into a field. -/
def readBytesMap (set : GoMap String GoString → β → β) : Json → β → Option β
  | .object members, x =>
    (members.mapM (fun e => (toBytes e.2).map (Prod.mk e.1))).map
      (fun l => set (GoMap.setAll ∅ l) x)
  | .null, x => some (set ∅ x)
  | _, _ => none

end

/-! ### Structs with tags -/

/-- A field with a tag, of a struct that is written as an `α` and read as a `β`: its name, its
value as JSON, which is left out if it is empty and the tag says so, and how a JSON value is
read into it, which fails for a value of another type. -/
structure TaggedField (α : Type u) (β : Type v) where
  name : String
  encode : α → Option Json
  decode : Json → β → Option β

/-- `json.Marshal` of a struct with tags. -/
def encodeTagged {β : Type v} (fields : List (TaggedField α β)) (x : α) : Json :=
  .object (fields.filterMap (fun f => (f.encode x).map (fun j => (f.name, j))))

/-- The member of an object read into the field it names, if there is one. -/
def decodeMember {β : Type v} (fields : List (TaggedField α β)) (x : β) (member : String × Json) :
    Option β :=
  match fields.find? (fun f => f.name = member.1) with
  | some f => f.decode member.2 x
  | none => some x

/-- `json.Unmarshal` into the zero struct, one member after the other. -/
def decodeTagged {β : Type v} (fields : List (TaggedField α β)) (zero : β) : Json → Option β
  | .object members => members.foldlM (decodeMember fields) zero
  | .null => some zero
  | _ => none

/-- What was written is read field by field, if the fields have different names. -/
theorem decodeTagged_encodeTagged {β : Type v} {fields : List (TaggedField α β)}
    (h : (fields.map TaggedField.name).Nodup) (zero : β) (x : α) :
  decodeTagged fields zero (encodeTagged fields x)
    = fields.foldlM (fun y f => (f.encode x).elim (some y) (fun j => f.decode j y)) zero
  := by
  have hfind : ∀ f ∈ fields, ∀ j y, decodeMember fields y (f.name, j) = f.decode j y := by
    intro f hf j y
    have hsome : fields.find? (fun g => g.name = f.name) = some f := by
      cases hfound : fields.find? (fun g => g.name = f.name) with
      | none => simpa using List.find?_eq_none.mp hfound f hf
      | some g =>
        have hname : g.name = f.name := by simpa using List.find?_some hfound
        rw [List.inj_on_of_nodup_map h (List.mem_of_find?_eq_some hfound) hf hname]
    rw [decodeMember, hsome]
  -- the fields still to be read, as a part of all the fields
  have hread : ∀ rest : List (TaggedField α β), (∀ f ∈ rest, f ∈ fields) → ∀ y,
      (rest.filterMap (fun f => (f.encode x).map (fun j => (f.name, j)))).foldlM
          (decodeMember fields) y
        = rest.foldlM (fun y f => (f.encode x).elim (some y) (fun j => f.decode j y)) y := by
    intro rest
    induction rest with
    | nil =>
      intro _ y
      rfl
    | cons f rest ih =>
      intro hrest y
      obtain ⟨hf, hrest⟩ := List.forall_mem_cons.mp hrest
      rw [List.foldlM_cons, List.filterMap_cons]
      cases f.encode x with
      | none => apply ih hrest
      | some j =>
        simp only [Option.map_some, List.foldlM_cons, hfind f hf, Option.elim_some, ih hrest]
  apply hread fields (fun f hf => hf)

/-- `json.Marshal` of a map with string keys. -/
def encodeMap (encode : α → Json) (m : GoMap String α) : Json :=
  .object (m.items.map (fun e => (e.1, encode e.2)))

/-- `json.Unmarshal` into a map with string keys. -/
def decodeMap (decode : Json → α) : Json → Option (GoMap String α)
  | .object members => some (GoMap.setAll ∅ (members.map (fun e => (e.1, decode e.2))))
  | .null => some ∅
  | _ => none

/-- Nothing is read into a struct without exported fields. -/
theorem decodeStruct_of_not_exported {fields : List (Field α)}
    (h : ∀ f ∈ fields, f.exported = false) (zero : α) (j : Json) :
  decodeStruct fields zero j = zero
  := by
  have hnone : fields.filter Field.exported = [] := by
    rw [List.filter_eq_nil_iff]
    intro f hf
    rw [h f hf]
    apply Bool.false_ne_true
  cases j with
  | object members => rw [decodeStruct, hnone, List.foldl_nil]
  | _ => rfl

/-- Writing a map and reading it back writes and reads back every value. -/
theorem lookup_decodeMap_encodeMap (encode : α → Json) (decode : Json → α) (m : GoMap String α) :
  ∃ m', decodeMap decode (encodeMap encode m) = some m' ∧
    ∀ k, m'.lookup k = (m.lookup k).map (fun x => decode (encode x))
  := by
  refine ⟨_, rfl, ?_⟩
  intro k
  rw [List.map_map]
  apply Eq.trans (GoMap.lookup_setAll_map (fun x => decode (encode x)) (List.Perm.refl m.items) ∅ k)
  apply Option.or_none

end Json
