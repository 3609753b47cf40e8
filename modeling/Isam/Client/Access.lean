import Isam.Calendar.Written
import Isam.Client.Field
namespace Isam.Field

def isNot (f : Field) (wanted : String) : Error := .wrongAccess f.name f.type wanted

/-! Typed readings of what stands in a field. Null reads as `none` in a field of the type asked for, and
in no other one. Some are refused by the type alone, whether there is a value or not. -/

def asBool (f : Field) (v : Except Error Value) : Except Error (Option Bool) := do
  match ← v with
  | .bool b => .ok (some b)
  | .null => if f.type = .bool then .ok none else .error (f.isNot "BOOL")
  | _ => .error (f.isNot "BOOL")

def asSigned (f : Field) (v : Except Error Value) : Except Error (Option Int64) := do
  if f.type.isSigned then
    match ← v with
    | .signed n => .ok (some n)
    | .null => .ok none
    | _ => .error (f.isNot "a signed integer")
  else .error (f.isNot "a signed integer")

def asUnsigned (f : Field) (v : Except Error Value) : Except Error (Option UInt64) := do
  if f.type.isUnsigned then
    match ← v with
    | .unsigned n => .ok (some n)
    | .null => .ok none
    | _ => .error (f.isNot "an unsigned integer")
  else .error (f.isNot "an unsigned integer")

def asFloat (f : Field) (v : Except Error Value) : Except Error (Option Double) := do
  if f.type.isFloat then
    match ← v with
    | .float x => .ok (some x)
    | .null => .ok none
    | _ => .error (f.isNot "a float")
  else .error (f.isNot "a float")

def asText (f : Field) (format : DateFormat) (v : Except Error Value) :
    Except Error (Option String) := do
  if f.type.isString || f.type.isDate then
    match ← v with
    | .null => .ok none
    | .text s => .ok (some s)
    | .date d => .ok (some (d.format format))
    | .binary bs =>
      match Text.ofUtf8? bs with
      | some s => .ok (some s)
      | none => .error (f.isNot "valid UTF-8 text")
    | _ => .error (f.isNot "a string")
  else .error (f.isNot "a string")

def asBinary (f : Field) (v : Except Error Value) : Except Error (Option (List UInt8)) := do
  if f.type.isBinary || f.type = .lvb then
    match ← v with
    | .null => .ok none
    | .binary bs => .ok (some bs)
    | .text s => .ok (some (Text.utf8 s))
    | _ => .error (f.isNot "binary")
  else .error (f.isNot "binary")

def asDate (f : Field) (v : Except Error Value) : Except Error (Option Date) := do
  match ← v with
  | .date d => .ok (some d)
  | .null => if f.type = .date then .ok none else .error (f.isNot "DATE")
  | _ => .error (f.isNot "DATE")

def asTime (f : Field) (v : Except Error Value) : Except Error (Option Time) := do
  match ← v with
  | .time t => .ok (some t)
  | .null => if f.type = .time then .ok none else .error (f.isNot "TIME")
  | _ => .error (f.isNot "TIME")

def asTimestamp (f : Field) (v : Except Error Value) : Except Error (Option Timestamp) := do
  match ← v with
  | .timestamp t => .ok (some t)
  | .null => if f.type = .timestamp then .ok none else .error (f.isNot "TIMESTAMP")
  | _ => .error (f.isNot "TIMESTAMP")

def ofText (f : Field) (format : DateFormat) (text : String) : Except Error Value :=
  if f.type.isDate then
    match Date.parse text format with
    | .ok d => .ok (.date d)
    | .error e => .error (.unreadableDate e)
  else .ok (.text text)

def accepted (f : Field) (v : Value) : Except Error Value :=
  let v := f.type.coerce v
  if v.isNull && !f.allowsNull then .error (.nullRefused f.name)
  else do
    f.type.checkValue f.length v
    return v

end Isam.Field
