import Isam.Codec.Bytes
import Isam.Storage.Rows
namespace Isam.Codec

/-! Sums are written as the place of their case and its contents, records as their parts in order,
maps as lists of their entries. -/

def putValue : Value → List UInt8
  | .null => putTag 0
  | .bool b => putTag 1 ++ putBool b
  | .signed n => putTag 2 ++ putLong n.toUInt64
  | .unsigned n => putTag 3 ++ putLong n
  | .float x => putTag 4 ++ putLong x.bits
  | .date d => putTag 5 ++ putWord d.days.toUInt32
  | .time t => putTag 6 ++ putWord t.seconds
  | .timestamp t => putTag 7 ++ putWord t.date.days.toUInt32 ++ putWord t.time.seconds
  | .text s => putTag 8 ++ putText s
  | .binary bs => putTag 9 ++ putBytes bs

def takeDate : Reader Date := (fun n => ⟨n.toInt32⟩) <$> takeWord

def takeTime : Reader Time := (fun n => ⟨n⟩) <$> takeWord

def takeValue : Reader Value := do
  match ← takeTag with
  | 0 => return .null
  | 1 => return .bool (← takeBool)
  | 2 => return .signed (← takeLong).toInt64
  | 3 => return .unsigned (← takeLong)
  | 4 => return .float ⟨← takeLong⟩
  | 5 => return .date (← takeDate)
  | 6 => return .time (← takeTime)
  | 7 => return .timestamp ⟨← takeDate, ← takeTime⟩
  | 8 => return .text (← takeText)
  | 9 => return .binary (← takeBytes)
  | _ => failure

def putType : FieldType → List UInt8
  | .unknown code => putTag FieldType.known.length ++ putShort code
  | t => putTag (FieldType.known.idxOf t)

def takeType : Reader FieldType := do
  let tag ← takeTag
  match FieldType.known[tag]? with
  | some t => return t
  | none => if tag = FieldType.known.length then return .unknown (← takeShort) else failure

def putKey (k : PropertyKey) : List UInt8 := putTag (PropertyKey.all.idxOf k)

def takeKey : Reader PropertyKey := do
  match PropertyKey.all[← takeTag]? with
  | some k => return k
  | none => failure

def putPropertyValue : PropertyValue → List UInt8
  | .bool b => putTag 0 ++ putBool b
  | .int n => putTag 1 ++ putLong n.toUInt64
  | .text s => putTag 2 ++ putText s
  | .value v => putTag 3 ++ putValue v

def takePropertyValue : Reader PropertyValue := do
  match ← takeTag with
  | 0 => return .bool (← takeBool)
  | 1 => return .int (← takeLong).toInt64
  | 2 => return .text (← takeText)
  | 3 => return .value (← takeValue)
  | _ => failure

def putProperty (e : PropertyKey × PropertyValue) : List UInt8 :=
  putKey e.1 ++ putPropertyValue e.2

def takeProperty : Reader (PropertyKey × PropertyValue) :=
  return (← takeKey, ← takePropertyValue)

def putProperties (p : Properties) : List UInt8 := putList putProperty p.entries

def takeProperties : Reader Properties := Properties.ofEntries <$> takeList takeProperty

def putField (f : FieldDecl) : List UInt8 :=
  putText f.name ++ putType f.type ++ putWord f.length ++ putLong f.number ++
    putProperties f.properties

def takeField : Reader FieldDecl :=
  return ⟨← takeText, ← takeType, ← takeWord, ← takeLong, ← takeProperties⟩

def putSegment (g : SegmentDecl) : List UInt8 :=
  putText g.field ++ putBool g.mode.descending ++ putBool g.mode.ignoreCase

def takeSegment : Reader SegmentDecl := return ⟨← takeText, ← takeBool, ← takeBool⟩

def putKind (k : IndexKind) : List UInt8 := putTag (IndexKind.all.idxOf k)

def takeKind : Reader IndexKind := do
  match IndexKind.all[← takeTag]? with
  | some k => return k
  | none => failure

def putIndex (i : IndexDecl) : List UInt8 :=
  putText i.name ++ putKind i.kind ++ putBool i.allowDuplicates ++ putBool i.allowNullKeys ++
    putList putSegment i.segments

def takeIndex : Reader IndexDecl :=
  return ⟨← takeText, ← takeKind, ← takeBool, ← takeBool, ← takeList takeSegment⟩

def putSchema (s : Schema) : List UInt8 := putList putField s.fields ++ putList putIndex s.indexes

def takeSchema : Reader Schema := return ⟨← takeList takeField, ← takeList takeIndex, []⟩

def putRow (e : RowId × Row) : List UInt8 := putLong e.1 ++ putList putValue e.2

def takeRow : Reader (RowId × Row) := return (← takeLong, ← takeList takeValue)

def putRows (r : Rows) : List UInt8 := putList putRow r.entries

def takeRows : Reader Rows := Rows.ofEntries <$> takeList takeRow

def putImage (i : Image) : List UInt8 :=
  putSchema i.schema ++ putRows i.rows ++ putLong i.nextRow

def takeImage : Reader Image := return ⟨← takeSchema, ← takeRows, ← takeLong⟩

end Isam.Codec
