import Isam.Field.Value
namespace Isam.FieldType

def checkLength (t : FieldType) (length : UInt32) : Except Error Unit :=
  if t.isKnown then
    match t.naturalLength? with
    | some expected =>
      if expected = length then .ok () else .error (.wrongLength t expected length)
    | none => if length = 0 then .error (.zeroLength t) else .ok ()
  else .error (.unknownType t.code)

def blank (t : FieldType) : Value :=
  match t with
  | .bool => .bool false
  | .date => .date Date.first
  | .time => .time Time.midnight
  | .timestamp => .timestamp Timestamp.first
  | t =>
    if t.isSigned then .signed 0
    else if t.isUnsigned then .unsigned 0
    else if t.isFloat then .float ⟨0⟩
    else if t.isBinary then .binary []
    else if t.isString then .text ""
    else .null

def coerce (t : FieldType) : Value → Value
  | .signed n =>
    if t.isUnsigned && 0 ≤ n.toInt then .unsigned (UInt64.ofNat n.toInt.toNat) else .signed n
  | .unsigned n =>
    if t.isSigned && (n.toNat : Int) ≤ Int64.maxValue.toInt then .signed (Int64.ofNat n.toNat)
    else .unsigned n
  | v => v

def checkCapacity (t : FieldType) (length : UInt32) (bytes : Nat) : Except Error Unit :=
  let capacity := (t.capacity? length).getD 0
  if bytes ≤ capacity then .ok () else .error (.overCapacity bytes t capacity)

def floatLimit : Double := ⟨0x47EFFFFFE0000000⟩

def overflowsFloat (x : Double) : Bool := x.isFinite && floatLimit.magnitude < x.magnitude

/-- Whether a field of this type and length can store a value. Null is stored by every type; whether
a field allows it is the field's own affair. -/
def checkValue (t : FieldType) (length : UInt32) (v : Value) : Except Error Unit :=
  match v with
  | .null => .ok ()
  | .signed n =>
    match t.signedRange? with
    | some (least, most) =>
      if least ≤ n.toInt ∧ n.toInt ≤ most then .ok ()
      else .error (.signedRange n.toInt t least most)
    | none => .error (.wrongKind .signed t)
  | .unsigned n =>
    match t.unsignedMax? with
    | some most => if n.toNat ≤ most then .ok () else .error (.unsignedRange n.toNat t most)
    | none => .error (.wrongKind .unsigned t)
  | .float x =>
    if t.isFloat then
      if t = .float ∧ overflowsFloat x then .error (.floatOverflow x) else .ok ()
    else .error (.wrongKind .float t)
  | .bool _ => if t = .bool then .ok () else .error (.wrongKind .bool t)
  | .date _ => if t = .date then .ok () else .error (.wrongKind .date t)
  | .time _ => if t = .time then .ok () else .error (.wrongKind .time t)
  | .timestamp _ => if t = .timestamp then .ok () else .error (.wrongKind .timestamp t)
  | .text s =>
    if t.isString then t.checkCapacity length s.utf8ByteSize else .error (.wrongKind .text t)
  | .binary bs =>
    if t.isBinary || t = .lvb then t.checkCapacity length bs.length
    else .error (.wrongKind .binary t)

end Isam.FieldType
