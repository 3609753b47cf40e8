import Isam.Json.Reader
namespace Isam.Json

variable {α : Type}

def text? : Json → Option String
  | .string s => s
  | _ => none

def bool? : Json → Option Bool
  | .bool b => some b
  | _ => none

def int? (least most : Int) : Json → Option Int
  | .number n => n.toInt?.filter fun m => least ≤ m && m ≤ most
  | _ => none

def nat? (most : Nat) (j : Json) : Option Nat := (j.int? 0 most).map Int.toNat

def uint8? (j : Json) : Option UInt8 := (j.nat? (UInt8.size - 1)).map UInt8.ofNat
def uint16? (j : Json) : Option UInt16 := (j.nat? (UInt16.size - 1)).map UInt16.ofNat
def uint32? (j : Json) : Option UInt32 := (j.nat? (UInt32.size - 1)).map UInt32.ofNat
def uint64? (j : Json) : Option UInt64 := (j.nat? (UInt64.size - 1)).map UInt64.ofNat
def int32? (j : Json) : Option Int32 := 
  (j.int? Int32.minValue.toInt Int32.maxValue.toInt).map Int32.ofInt
def int64? (j : Json) : Option Int64 := 
  (j.int? Int64.minValue.toInt Int64.maxValue.toInt).map Int64.ofInt

def double? : Json → Option Double
  | .number n => n.asDouble?
  | _ => none

def list? (read : Json → Option α) : Json → Option (List α)
  | .array items => items.mapM read
  | _ => none

def entries? (read : String × Json → Option α) : Json → Option (List α)
  | .object entries => entries.mapM fun e => e.1.bind fun k => read (k, e.2)
  | _ => none

def partsOfEntries (names : List String) (entries : List (String × Json)) :
    Option (List (Option Json)) :=
  names.mapM fun name =>
    match entries.filter (·.1 == name) with
    | [] => some none
    | [e] => some (some e.2)
    | _ => none

def parts? (names : List String) : Json → Option (List (Option Json))
  | .object entries => do
    partsOfEntries names (← entries.mapM fun e => e.1.map fun k => (k, e.2))
  | .array items =>
    if items.length ≤ names.length then some (names.mapIdx fun n _ => items[n]?) else none
  | _ => none

def required (read : Json → Option α) (part : Option Json) : Option α := part.bind read

def optional (default : α) (read : Json → Option α) : Option Json → Option α
  | none => some default
  | some j => read j

def case? (ofName? : String → Option α) : Json → Option α
  | .string (some s) => ofName? s
  | .object [(some s, .null)] => ofName? s
  | _ => none

end Isam.Json
