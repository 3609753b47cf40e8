import Isam.Json.Decode
import Isam.Schema.Basic
namespace Isam

open Json

namespace Date

def toJson (d : Date) : Json := ofPairs [("days", ofInt d.days.toInt)]

def ofJson? (j : Json) : Option Date := do
  match ← j.parts? ["days"] with
  | [days] => return ⟨← required int32? days⟩
  | _ => none

end Date

namespace Time

def toJson (t : Time) : Json := ofPairs [("secs", ofNat t.seconds.toNat)]

def ofJson? (j : Json) : Option Time := do
  match ← j.parts? ["secs"] with
  | [seconds] => return ⟨← required uint32? seconds⟩
  | _ => none

end Time

namespace Timestamp

def toJson (t : Timestamp) : Json := ofPairs [("date", t.date.toJson), ("time", t.time.toJson)]

def ofJson? (j : Json) : Option Timestamp := do
  match ← j.parts? ["date", "time"] with
  | [date, time] => return ⟨← required Date.ofJson? date, ← required Time.ofJson? time⟩
  | _ => none

end Timestamp

namespace Value

def toJson : Value → Json
  | .null => ofString "Null"
  | .bool b => ofPairs [("Bool", .bool b)]
  | .signed n => ofPairs [("Signed", ofInt n.toInt)]
  | .unsigned n => ofPairs [("Unsigned", ofNat n.toNat)]
  | .float x => ofPairs [("Float", ofDouble x)]
  | .date d => ofPairs [("Date", d.toJson)]
  | .time t => ofPairs [("Time", t.toJson)]
  | .timestamp t => ofPairs [("Timestamp", t.toJson)]
  | .text s => ofPairs [("Text", ofString s)]
  | .binary bs => ofPairs [("Binary", .array (bs.map fun b => ofNat b.toNat))]

def ofJson? : Json → Option Value
  | .string (some "Null") => some .null
  | .object [(some "Null", .null)] => some .null
  | .object [(some "Bool", j)] => j.bool?.map .bool
  | .object [(some "Signed", j)] => j.int64?.map .signed
  | .object [(some "Unsigned", j)] => j.uint64?.map .unsigned
  | .object [(some "Float", j)] => j.double?.map .float
  | .object [(some "Date", j)] => (Date.ofJson? j).map .date
  | .object [(some "Time", j)] => (Time.ofJson? j).map .time
  | .object [(some "Timestamp", j)] => (Timestamp.ofJson? j).map .timestamp
  | .object [(some "Text", j)] => j.text?.map .text
  | .object [(some "Binary", j)] => (j.list? uint8?).map .binary
  | _ => none

end Value

namespace FieldType

def labels : List String :=
  ["Bool", "TinyInt", "UTinyInt", "SmallInt", "USmallInt", "Integer", "UInteger", "Money", "Date",
    "Time", "Float", "Double", "Timestamp", "EFloat", "Binary", "Chars", "FpString", "F2String",
    "F4String", "BigInt", "Number", "Currency", "PString", "VarBinary", "Lvb", "VarChar"]

def ofLabel? (s : String) : Option FieldType :=
  ((labels.zip known).find? (·.1 == s)).map (·.2)

def toJson : FieldType → Json
  | .unknown code => ofPairs [("Unknown", ofNat code.toNat)]
  | t => ofString (labels.getD (known.idxOf t) "")

def ofJson? : Json → Option FieldType
  | .object [(some "Unknown", j)] => j.uint16?.map .unknown
  | j => case? ofLabel? j

end FieldType

namespace PropertyValue

def toJson : PropertyValue → Json
  | .bool b => ofPairs [("Bool", .bool b)]
  | .int n => ofPairs [("Int", ofInt n.toInt)]
  | .text s => ofPairs [("Text", ofString s)]
  | .value v => ofPairs [("Value", v.toJson)]

def ofJson? : Json → Option PropertyValue
  | .object [(some "Bool", j)] => j.bool?.map .bool
  | .object [(some "Int", j)] => j.int64?.map .int
  | .object [(some "Text", j)] => j.text?.map .text
  | .object [(some "Value", j)] => (Value.ofJson? j).map .value
  | _ => none

end PropertyValue

namespace Properties

def toJson (p : Properties) : Json :=
  ofPairs [("entries", ofPairs (p.entries.map fun e => (e.1.name, e.2.toJson)))]

def ofJson? (j : Json) : Option Properties := do
  match ← j.parts? ["entries"] with
  | [entries] =>
    let es ← required (entries? fun e => do
      return (← PropertyKey.ofName? e.1, ← PropertyValue.ofJson? e.2)) entries
    return ofEntries es
  | _ => none

end Properties

namespace FieldDecl

def toJson (f : FieldDecl) : Json := ofPairs [
  ("name", ofString f.name), ("field_type", f.type.toJson), ("length", ofNat f.length.toNat),
  ("number", ofNat f.number.toNat), ("properties", f.properties.toJson)]

def ofJson? (j : Json) : Option FieldDecl := do
  match ← j.parts? ["name", "field_type", "length", "number", "properties"] with
  | [name, type, length, number, properties] =>
    return {
      name := ← required text? name
      type := ← required FieldType.ofJson? type
      length := ← required uint32? length
      number := ← required uint64? number
      properties := ← Json.optional .none Properties.ofJson? properties }
  | _ => none

end FieldDecl

namespace SegmentMode

def toJson (m : SegmentMode) : Json :=
  ofPairs [("descending", .bool m.descending), ("ignore_case", .bool m.ignoreCase)]

def ofJson? (j : Json) : Option SegmentMode := do
  match ← j.parts? ["descending", "ignore_case"] with
  | [descending, ignoreCase] => return ⟨← required bool? descending, ← required bool? ignoreCase⟩
  | _ => none

end SegmentMode

namespace SegmentDecl

def toJson (g : SegmentDecl) : Json :=
  ofPairs [("field_name", ofString g.field), ("mode", g.mode.toJson)]

def ofJson? (j : Json) : Option SegmentDecl := do
  match ← j.parts? ["field_name", "mode"] with
  | [field, mode] => return ⟨← required text? field, ← required SegmentMode.ofJson? mode⟩
  | _ => none

end SegmentDecl

namespace IndexDecl

def toJson (i : IndexDecl) : Json := ofPairs [
  ("name", ofString i.name), ("kind", ofString i.kind.name),
  ("allow_duplicates", .bool i.allowDuplicates), ("allow_null_keys", .bool i.allowNullKeys),
  ("segments", .array (i.segments.map (·.toJson)))]

def ofJson? (j : Json) : Option IndexDecl := do
  match ← j.parts? ["name", "kind", "allow_duplicates", "allow_null_keys", "segments"] with
  | [name, kind, duplicates, nullKeys, segments] =>
    return {
      name := ← required text? name
      kind := ← required (case? IndexKind.ofName?) kind
      allowDuplicates := ← Json.optional false bool? duplicates
      allowNullKeys := ← Json.optional true bool? nullKeys
      segments := ← required (list? SegmentDecl.ofJson?) segments }
  | _ => none

end IndexDecl

namespace Schema

def toJson (s : Schema) : Json := ofPairs [
  ("fields", .array (s.fields.map (·.toJson))), ("indexes", .array (s.indexes.map (·.toJson)))]

def ofJson? (j : Json) : Option Schema := do
  match ← j.parts? ["fields", "indexes"] with
  | [fields, indexes] =>
    return {
      fields := ← required (list? FieldDecl.ofJson?) fields
      indexes := ← required (list? IndexDecl.ofJson?) indexes }
  | _ => none

def parse (text : String) : Except Error Schema :=
  match (Json.parse text).bind ofJson? with
  | some s => .ok s
  | none => .error .malformedText

end Schema
end Isam
