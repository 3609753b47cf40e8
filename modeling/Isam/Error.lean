import Isam.Text.Basic
import Isam.Text.Printable
import Isam.Double.Shortest
import Isam.Calendar.Format
import Isam.Field.Type
import Isam.Lock.Mode
namespace Isam

inductive ErrorKind
  | connection
  | invalidArgument
  | notFound
  | alreadyExists
  | schemaMismatch
  | typeMismatch
  | lockConflict
  | notOpen
  | constraintViolation
  | readOnly
  | corruption
  | io
  | serialization
  | panic
  deriving DecidableEq, Repr

namespace ErrorKind

def heading : ErrorKind → String
  | .connection => "Connection error: "
  | .invalidArgument => "Invalid argument: "
  | .notFound => "Not found: "
  | .alreadyExists => "Already exists: "
  | .schemaMismatch => "Schema mismatch: "
  | .typeMismatch => "Type mismatch: "
  | .lockConflict => "Lock conflict: "
  | .notOpen => "Not open: "
  | .constraintViolation => "Constraint violation: "
  | .readOnly => "Read-only: "
  | .corruption => "Data corruption: "
  | .io => "IO error: "
  | .serialization => "Serialization error: "
  | .panic => "Panic: "

end ErrorKind

inductive Panic
  | outsideBuffer (position width : Nat)
  | rowNumbers
  | keyLength
  deriving DecidableEq, Repr

namespace Panic

def describe : Panic → String
  | .outsideBuffer position width =>
    s!"index out of bounds: the len is {width} but the index is {position}"
  | .rowNumbers | .keyLength => "attempt to add with overflow"

end Panic

/-- Why a call fails. One that panics does not answer at all; who outlives it finds everything as it was
before the call. -/
inductive Error
  | unknownEngine (asked actual : String)
  | loginRefused (user : String)
  | callRefused (call : String)
  | invalidDate (year : Int) (month day : Nat)
  | invalidTime (hour minute second : Nat)
  | dateText (text : String) (format : DateFormat)
  | timestampRange (seconds : Int)
  | unknownType (code : UInt16)
  | wrongLength (type : FieldType) (expected actual : UInt32)
  | zeroLength (type : FieldType)
  | noFields
  | emptyFieldName (position : Nat)
  | duplicateField (name : String)
  | duplicateIndex (name : String)
  | emptyIndex (name : String)
  | frozenIndex (name : String)
  | engineNameRequired
  | alreadyLoggedOn (endpoint : String)
  | tableIsOpen (attempt : String)
  | fieldNameRequired
  | fieldExists (name : String)
  | badDefault (field : String) (cause : Error)
  | indexNameRequired
  | indexExists (name : String)
  | tableNameRequired
  | findInPhysicalOrder
  | noActiveIndex
  | notPositioned
  | noIndexNumber (number count : Nat)
  | noSuchIndexNumber (number : Nat)
  | noRow (row : RowId)
  | segmentWithoutField (index field : String)
  | foreignField (field index : String)
  | noTable (name path : String)
  | noFieldNumber (number count : Nat)
  | noField (name : String)
  | noIndex (name : String)
  | emptyTable
  | tableExists (name path : String)
  | misnumberedField (name : String) (number position : Nat)
  | unknownSegmentField (index field : String)
  | notTableFile
  | formatVersion (actual expected : Nat)
  | rowWidth (actual expected : Nat)
  | wrongKind (kind : ValueKind) (type : FieldType)
  | signedRange (value : Int) (type : FieldType) (least most : Int)
  | unsignedRange (value : Nat) (type : FieldType) (most : Nat)
  | floatOverflow (value : Double)
  | overCapacity (bytes : Nat) (type : FieldType) (capacity : Nat)
  | nullRefused (field : String)
  | wrongAccess (field : String) (type : FieldType) (wanted : String)
  | unreadableDate (cause : Error)
  | lockDenied (asked : LockKind) (resource : LockResource) (held : LockKind)
      (holder : ConnectionId)
  | writesBlocked (holder : ConnectionId) (kind : LockKind)
  | rowLocked (row : RowId) (kind : LockKind) (holder : ConnectionId)
  | recreatedWhileOpen (name : String)
  | openedExclusively (name : String)
  | exclusiveDenied (name : String)
  | sessionInactive
  | handleClosed (handle : HandleId)
  | tableNotOpen (name : Option String)
  | bindingClosed
  | duplicateKey (index : String) (row : RowId)
  | openedReadOnly (path : String)
  | payloadLength (actual stated : Nat)
  | wrongChecksum (expected actual : UInt32)
  | unreadablePayload
  | diskFailure
  | malformedText
  | panic (p : Panic)
  deriving DecidableEq, Repr

namespace Error

def kind : Error → ErrorKind
  | unknownEngine .. | loginRefused .. | callRefused .. => .connection
  | invalidDate .. | invalidTime .. | dateText .. | timestampRange .. | unknownType ..
  | wrongLength .. | zeroLength .. | noFields | emptyFieldName .. | duplicateField ..
  | duplicateIndex .. | emptyIndex .. | frozenIndex .. | engineNameRequired | alreadyLoggedOn ..
  | tableIsOpen .. | fieldNameRequired | fieldExists .. | badDefault .. | indexNameRequired
  | indexExists .. | tableNameRequired | findInPhysicalOrder | noActiveIndex
  | notPositioned => .invalidArgument
  | noIndexNumber .. | noSuchIndexNumber .. | noRow .. | segmentWithoutField .. | foreignField ..
  | noTable .. | noFieldNumber .. | noField .. | noIndex .. | emptyTable => .notFound
  | tableExists .. => .alreadyExists
  | misnumberedField .. | unknownSegmentField .. | notTableFile | formatVersion ..
  | rowWidth .. => .schemaMismatch
  | wrongKind .. | signedRange .. | unsignedRange .. | floatOverflow .. | overCapacity ..
  | nullRefused .. | wrongAccess .. | unreadableDate .. => .typeMismatch
  | lockDenied .. | writesBlocked .. | rowLocked .. | recreatedWhileOpen .. | openedExclusively ..
  | exclusiveDenied .. => .lockConflict
  | sessionInactive | handleClosed .. | tableNotOpen .. | bindingClosed => .notOpen
  | duplicateKey .. => .constraintViolation
  | openedReadOnly .. => .readOnly
  | payloadLength .. | wrongChecksum .. | unreadablePayload => .corruption
  | diskFailure => .io
  | malformedText => .serialization
  | panic _ => .panic

def isNotFound (e : Error) : Bool := e.kind == .notFound

def hex8 (n : UInt32) : String := String.ofList (Text.hexPlaces 8 n.toNat)

def cause : Error → String
  | unknownEngine asked actual => s!"unknown engine '{asked}' (this engine is '{actual}')"
  | loginRefused user => s!"authentication failed for user '{user}'"
  | callRefused call => s!"{call} refused"
  | invalidDate year month day =>
    "invalid date " ++ String.ofList
      (Text.padded 4 year ++ '-' :: Text.padded 2 month ++ '-' :: Text.padded 2 day)
  | invalidTime hour minute second =>
    "invalid time " ++ String.ofList
      (Text.padded 2 hour ++ ':' :: Text.padded 2 minute ++ ':' :: Text.padded 2 second)
  | dateText text format => s!"'{text}' does not match date format {format.pattern}"
  | timestampRange seconds => s!"{seconds} seconds is outside the timestamp range"
  | unknownType code => s!"unrecognized field type code {code.toNat}"
  | wrongLength type expected actual =>
    s!"{type.name} fields have length {expected.toNat}, got {actual.toNat}"
  | zeroLength type => s!"{type.name} fields need a non-zero length"
  | noFields => "a table needs at least one field"
  | emptyFieldName position => s!"field {position} has an empty name"
  | duplicateField name => s!"duplicate field name '{name}'"
  | duplicateIndex name => s!"duplicate index name '{name}'"
  | emptyIndex name => s!"index '{name}' has no segments"
  | frozenIndex name => s!"index '{name}' can only change before the table is created"
  | engineNameRequired => "engine name is required"
  | alreadyLoggedOn endpoint => s!"session is already logged on to '{endpoint}'"
  | tableIsOpen attempt => s!"cannot {attempt} while the table is open"
  | fieldNameRequired => "field name is required"
  | fieldExists name => s!"field '{name}' already exists"
  | badDefault field e => s!"default for '{field}': " ++ e.kind.heading ++ e.cause
  | indexNameRequired => "index name is required"
  | indexExists name => s!"index '{name}' already exists"
  | tableNameRequired => "table name is required"
  | findInPhysicalOrder => "find needs an index, not physical order"
  | noActiveIndex => "find needs an active index"
  | notPositioned => "record is not positioned on a row"
  | noIndexNumber number count => s!"index number {number} (table has {count})"
  | noSuchIndexNumber number => s!"index number {number}"
  | noRow row => s!"row {row.toNat} no longer exists"
  | segmentWithoutField index field => s!"index '{index}' refers to unknown field '{field}'"
  | foreignField field index => s!"field '{field}' does not belong to the table of index '{index}'"
  | noTable name path => s!"table '{name}' not found at {path}"
  | noFieldNumber number count => s!"field number {number} (table has {count})"
  | noField name => s!"field '{name}'"
  | noIndex name => s!"index '{name}'"
  | emptyTable => "table is empty"
  | tableExists name path => s!"table '{name}' already exists at {path}"
  | misnumberedField name number position =>
    s!"field '{name}' numbered {number} at position {position}"
  | unknownSegmentField index field => s!"index '{index}' refers to unknown field '{field}'"
  | notTableFile => "not a ctdb table file"
  | formatVersion actual expected =>
    s!"unsupported table format version {actual} (expected {expected})"
  | rowWidth actual expected => s!"row has {actual} values, table has {expected} fields"
  | wrongKind kind type => s!"{kind.name} value cannot be stored in a {type.name} field"
  | signedRange value type least most =>
    s!"{value} out of range for {type.name} ({least}..={most})"
  | unsignedRange value type most => s!"{value} out of range for {type.name} (0..={most})"
  | floatOverflow value => Double.plain.render value ++ " overflows FLOAT"
  | overCapacity bytes type capacity =>
    s!"{bytes} bytes exceed {type.name} capacity of {capacity}"
  | nullRefused field => s!"field '{field}' does not allow null"
  | wrongAccess field type wanted => s!"field '{field}' is {type.name}, not {wanted}"
  | unreadableDate e => e.kind.heading ++ e.cause
  | lockDenied asked resource held holder =>
    s!"{asked.name} lock on {resource.describe} denied: held {held.name} by connection {holder}"
  | writesBlocked holder kind =>
    s!"writes blocked: connection {holder} holds a {kind.name} session lock"
  | rowLocked row kind holder => s!"row {row.toNat} is locked {kind.name} by connection {holder}"
  | recreatedWhileOpen name => s!"table '{name}' is open and cannot be recreated"
  | openedExclusively name => s!"table '{name}' is opened exclusively"
  | exclusiveDenied name => s!"table '{name}' is already open, exclusive open denied"
  | sessionInactive => "session is not active"
  | handleClosed handle => s!"table handle {handle} is not open"
  | tableNotOpen name => "table " ++ Text.optional Text.quoted name ++ " is not open"
  | bindingClosed => "record belongs to a table binding that has been closed"
  | duplicateKey index row => s!"duplicate key on unique index '{index}' (row {row.toNat})"
  | openedReadOnly path => s!"{path} was opened read-only"
  | payloadLength actual stated => s!"payload is {actual} bytes, header says {stated}"
  | wrongChecksum expected actual =>
    s!"checksum mismatch: expected {hex8 expected}, got {hex8 actual}"
  | unreadablePayload => "unreadable table payload: "
  | diskFailure => "the disk refused the call"
  | malformedText => "the text could not be read"
  | panic p => p.describe

def message (e : Error) : String := e.kind.heading ++ e.cause

end Error

theorem bind_eq_ok {α β : Type} {x : Except Error α} {f : α → Except Error β} {b : β} :
    x >>= f = .ok b ↔ ∃ a, x = .ok a ∧ f a = .ok b := by
  cases x <;> simp [bind, Except.bind]

theorem bind_eq_error {α β : Type} {x : Except Error α} {f : α → Except Error β} {e : Error} :
    x >>= f = .error e ↔ x = .error e ∨ ∃ a, x = .ok a ∧ f a = .error e := by
  cases x <;> simp [bind, Except.bind]

theorem exists_of_isOk {α : Type} {x : Except Error α} (hx : x.isOk = true) : ∃ a, x = .ok a := by
  cases x with
  | ok a => exact ⟨a, rfl⟩
  | error e => cases hx

end Isam
