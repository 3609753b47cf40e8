namespace Isam

/-- The primitive types of fields. `unknown` holds a code that is none of theirs, or that was stored
as such. -/
inductive FieldType
  | bool
  | tinyInt
  | uTinyInt
  | smallInt
  | uSmallInt
  | integer
  | uInteger
  | money
  | date
  | time
  | float
  | double
  | timestamp
  | eFloat
  | binary
  | chars
  | fpString
  | f2String
  | f4String
  | bigInt
  | number
  | currency
  | pString
  | varBinary
  | lvb
  | varChar
  | unknown (code : UInt16)
  deriving DecidableEq, Repr

namespace FieldType

def known : List FieldType :=
  [.bool, .tinyInt, .uTinyInt, .smallInt, .uSmallInt, .integer, .uInteger, .money, .date, .time,
    .float, .double, .timestamp, .eFloat, .binary, .chars, .fpString, .f2String, .f4String,
    .bigInt, .number, .currency, .pString, .varBinary, .lvb, .varChar]

def code : FieldType → UInt16
  | .unknown code => code
  | t => UInt16.ofNat (known.idxOf t + 1)

def ofCode (code : UInt16) : FieldType :=
  if code = 0 then .unknown code else known.getD (code.toNat - 1) (.unknown code)

def name : FieldType → String
  | .bool => "BOOL"
  | .tinyInt => "TINYINT"
  | .uTinyInt => "UTINYINT"
  | .smallInt => "SMALLINT"
  | .uSmallInt => "USMALLINT"
  | .integer => "INTEGER"
  | .uInteger => "UINTEGER"
  | .money => "MONEY"
  | .date => "DATE"
  | .time => "TIME"
  | .float => "FLOAT"
  | .double => "DOUBLE"
  | .timestamp => "TIMESTAMP"
  | .eFloat => "EFLOAT"
  | .binary => "BINARY"
  | .chars => "CHARS"
  | .fpString => "FPSTRING"
  | .f2String => "F2STRING"
  | .f4String => "F4STRING"
  | .bigInt => "BIGINT"
  | .number => "NUMBER"
  | .currency => "CURRENCY"
  | .pString => "PSTRING"
  | .varBinary => "VARBINARY"
  | .lvb => "LVB"
  | .varChar => "VARCHAR"
  | .unknown _ => "UNKNOWN"

def ofName? (s : String) : Option FieldType := known.find? (·.name == s)

def isKnown : FieldType → Bool
  | .unknown _ => false
  | _ => true

def isString : FieldType → Bool
  | .chars | .fpString | .f2String | .f4String | .pString | .varChar | .lvb => true
  | _ => false

def isInteger : FieldType → Bool
  | .tinyInt | .uTinyInt | .smallInt | .uSmallInt | .integer | .uInteger | .bigInt | .number => true
  | _ => false

def isDate : FieldType → Bool
  | .date => true
  | _ => false

def isSigned : FieldType → Bool
  | .tinyInt | .smallInt | .integer | .bigInt | .number | .money | .currency => true
  | _ => false

def isUnsigned : FieldType → Bool
  | .uTinyInt | .uSmallInt | .uInteger => true
  | _ => false

def isFloat : FieldType → Bool
  | .float | .double | .eFloat => true
  | _ => false

def isBinary : FieldType → Bool
  | .binary | .varBinary => true
  | _ => false

def naturalLength? : FieldType → Option UInt32
  | .bool | .tinyInt | .uTinyInt => some 1
  | .smallInt | .uSmallInt => some 2
  | .integer | .uInteger | .money => some 4
  | .date | .time | .float => some 4
  | .double | .timestamp => some 8
  | .bigInt | .number | .currency => some 8
  | .eFloat => some 16
  | .fpString | .pString => some 1
  | .f2String | .varBinary => some 2
  | .f4String | .lvb => some 4
  | .chars | .varChar | .binary => none
  | .unknown _ => none

def capacity? (t : FieldType) (length : UInt32) : Option Nat :=
  match t with
  | .chars | .varChar | .binary => some length.toNat
  | .fpString | .pString => some 255
  | .f2String | .varBinary => some 65535
  | .f4String | .lvb => some 4294967295
  | _ => none

def signedRange? : FieldType → Option (Int × Int)
  | .tinyInt => some (-128, 127)
  | .smallInt => some (-32768, 32767)
  | .integer | .money => some (-2147483648, 2147483647)
  | .bigInt | .number | .currency => some (-9223372036854775808, 9223372036854775807)
  | _ => none

def unsignedMax? : FieldType → Option Nat
  | .uTinyInt => some 255
  | .uSmallInt => some 65535
  | .uInteger => some 4294967295
  | _ => none

theorem signedRange?_isSome (t : FieldType) : t.signedRange?.isSome = t.isSigned := by
  cases t <;> rfl

theorem unsignedMax?_isSome (t : FieldType) : t.unsignedMax?.isSome = t.isUnsigned := by
  cases t <;> rfl

end FieldType

inductive ValueKind
  | null
  | bool
  | signed
  | unsigned
  | float
  | date
  | time
  | timestamp
  | text
  | binary
  deriving DecidableEq, Repr

namespace ValueKind

def name : ValueKind → String
  | .null => "null"
  | .bool => "bool"
  | .signed => "signed"
  | .unsigned => "unsigned"
  | .float => "float"
  | .date => "date"
  | .time => "time"
  | .timestamp => "timestamp"
  | .text => "text"
  | .binary => "binary"

end ValueKind
end Isam
