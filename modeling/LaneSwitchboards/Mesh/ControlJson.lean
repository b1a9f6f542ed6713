import LaneSwitchboards.Mesh.Control

/-!
# The JSON of control messages

The text that `serde_json` writes for a control message: a variant with a payload is an object
with one field, one without is its name. `tableCodec` reads and writes the messages of a table,
for the runs on concrete records.

* `length_json`: the length of a record grows with that of its service.
* `lawful_tableCodec`: a table codec is lawful if its messages are written differently.
-/

namespace LaneSwitchboards

/-- A character inside a string. -/
def escapeChar (c : Char) : List Char :=
  if c = Char.ofNat 34 ∨ c = Char.ofNat 92 then [Char.ofNat 92, c]
  else if c.toNat = 8 then "\\b".toList
  else if c.toNat = 9 then "\\t".toList
  else if c.toNat = 10 then "\\n".toList
  else if c.toNat = 12 then "\\f".toList
  else if c.toNat = 13 then "\\r".toList
  else if c.toNat < 32 then
    "\\u00".toList ++ [Nat.digitChar (c.toNat / 16), Nat.digitChar (c.toNat % 16)]
  else [c]

def jsonString (cs : List Char) : List Char := "\"".toList ++ cs.flatMap escapeChar ++ "\"".toList

/-- Texts with commas between them. -/
def commaSeparated : List (List Char) → List Char
  | [] => []
  | text :: texts => text ++ texts.flatMap (",".toList ++ ·)

def jsonField (name : String) (value : List Char) : List Char :=
  jsonString name.toList ++ ":".toList ++ value

def jsonObject (fields : List (List Char)) : List Char :=
  "\x7b".toList ++ commaSeparated fields ++ "\x7d".toList

def ServiceRecord.json (r : ServiceRecord) : List Char :=
  jsonObject [jsonField "service" (jsonString r.service.toList),
    jsonField "instance_id" (jsonString r.instanceId.toList),
    jsonField "address" (jsonString r.address.toList),
    jsonField "target" (jsonString r.target.toList),
    jsonField "registered_at" (Nat.toDigits 10 r.registeredAt)]

/-- The characters of a text as bytes. -/
def utf8 (cs : List Char) : List UInt8 := cs.flatMap String.utf8EncodeChar

namespace MeshControlMsg

/-- The text of a message. -/
def json : MeshControlMsg → List Char
  | .register r => jsonObject [jsonField "Register" r.json]
  | .deregister service instanceId => jsonObject [jsonField "Deregister" (jsonObject
      [jsonField "service" (jsonString service.toList),
        jsonField "instance_id" (jsonString instanceId.toList)])]
  | .list => jsonString "List".toList
  | .listReply records => jsonObject [jsonField "ListReply"
      ("[".toList ++ commaSeparated (records.map ServiceRecord.json) ++ "]".toList)]
  | .ping => jsonString "Ping".toList
  | .pong => jsonString "Pong".toList

/-- The frame body of a message. -/
def body (msg : MeshControlMsg) : List UInt8 := utf8 msg.json

end MeshControlMsg

/-! ### Lengths -/

theorem length_utf8_append (cs cs' : List Char) :
    (utf8 (cs ++ cs')).length = (utf8 cs).length + (utf8 cs').length := by
  rw [utf8, List.flatMap_append, List.length_append]
  rfl

theorem length_jsonObject (fields : List (List Char)) :
    (utf8 (jsonObject fields)).length = (utf8 (commaSeparated fields)).length + 2 := by
  have hopen : (utf8 "\x7b".toList).length = 1 := by decide
  have hclose : (utf8 "\x7d".toList).length = 1 := by decide
  rw [jsonObject, length_utf8_append, length_utf8_append, hopen, hclose]
  omega

theorem length_jsonField (name : String) (value : List Char) :
    (utf8 (jsonField name value)).length =
      (utf8 (jsonString name.toList)).length + 1 + (utf8 value).length := by
  have hcolon : (utf8 ":".toList).length = 1 := by decide
  rw [jsonField, length_utf8_append, length_utf8_append, hcolon]

/-- The fields of a record after its service. -/
def ServiceRecord.jsonRest (r : ServiceRecord) : List Char :=
  [jsonField "instance_id" (jsonString r.instanceId.toList),
    jsonField "address" (jsonString r.address.toList),
    jsonField "target" (jsonString r.target.toList),
    jsonField "registered_at" (Nat.toDigits 10 r.registeredAt)].flatMap (",".toList ++ ·)

theorem length_json (r : ServiceRecord) :
    (utf8 r.json).length =
      (utf8 (jsonString r.service.toList)).length + (utf8 r.jsonRest).length + 12 := by
  have hname : (utf8 (jsonString "service".toList)).length = 9 := by decide
  rw [ServiceRecord.json, length_jsonObject, commaSeparated, length_utf8_append, length_jsonField,
    hname, ← ServiceRecord.jsonRest]
  omega

theorem length_body_register (r : ServiceRecord) :
    (MeshControlMsg.register r).body.length = (utf8 r.json).length + 13 := by
  have hname : (utf8 (jsonString "Register".toList)).length = 10 := by decide
  rw [MeshControlMsg.body, MeshControlMsg.json, length_jsonObject, commaSeparated,
    List.flatMap_nil, List.append_nil, length_jsonField, hname]
  omega

theorem length_body_listReply (records : List ServiceRecord) :
    (MeshControlMsg.listReply records).body.length =
      (utf8 (commaSeparated (records.map ServiceRecord.json))).length + 16 := by
  have hname : (utf8 (jsonString "ListReply".toList)).length = 11 := by decide
  have hopen : (utf8 "[".toList).length = 1 := by decide
  have hclose : (utf8 "]".toList).length = 1 := by decide
  rw [MeshControlMsg.body, MeshControlMsg.json, length_jsonObject, commaSeparated,
    List.flatMap_nil, List.append_nil, length_jsonField, hname, length_utf8_append,
    length_utf8_append, hopen, hclose]
  omega

theorem MeshControlMsg.body_ne_nil (msg : MeshControlMsg) : msg.body ≠ [] := by
  have hjson : msg.json ≠ [] := by cases msg <;> exact List.cons_ne_nil _ _
  obtain ⟨c, cs, hcs⟩ := List.exists_cons_of_ne_nil hjson
  rw [body, utf8, hcs, List.flatMap_cons]
  exact List.append_ne_nil_of_left_ne_nil String.utf8EncodeChar_ne_nil _

/-! ### Table codecs -/

/-- The codec of the messages of a table. -/
def tableCodec (table : List MeshControlMsg) : ControlCodec where
  encode msg := if msg ∈ table then some msg.body else none
  decode body := table.find? (·.body = body)

theorem lawful_tableCodec {table : List MeshControlMsg}
    (h : (table.map MeshControlMsg.body).Nodup) (hlist : .list ∈ table) (hpong : .pong ∈ table) :
    (tableCodec table).Lawful where
  roundTrip := by
    intro msg body hbody
    obtain ⟨hmem, rfl⟩ : msg ∈ table ∧ msg.body = body := by simpa [tableCodec] using hbody
    obtain ⟨msg', hfind⟩ : ∃ msg', table.find? (·.body = msg.body) = some msg' :=
      Option.isSome_iff_exists.mp (List.find?_isSome.mpr ⟨msg, hmem, by simp⟩)
    have hbody : msg'.body = msg.body := by simpa using List.find?_some hfind
    have heq := List.inj_on_of_nodup_map h (List.mem_of_find?_eq_some hfind) hmem hbody
    exact heq ▸ hfind
  nonempty := by
    intro msg body hbody
    obtain ⟨-, rfl⟩ : msg ∈ table ∧ msg.body = body := by simpa [tableCodec] using hbody
    exact msg.body_ne_nil
  list := by
    have hbody : MeshControlMsg.list.body = "\"List\"".toUTF8.data.toList := by decide
    simp only [tableCodec, if_pos hlist, hbody]
  pong := by
    have hbody : MeshControlMsg.pong.body = "\"Pong\"".toUTF8.data.toList := by decide
    simp only [tableCodec, if_pos hpong, hbody]

end LaneSwitchboards
