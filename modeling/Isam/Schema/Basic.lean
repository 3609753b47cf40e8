import Isam.Schema.Decl
namespace Isam

/-- The fields and indexes of a table. `numbers` tells the declared number of each field name; it is
made by `numbered` and not stored. -/
structure Schema where
  fields : List FieldDecl
  indexes : List IndexDecl
  numbers : List (String × UInt64) := []
  deriving DecidableEq, Repr

namespace Schema

def numbered (s : Schema) : Schema := { s with numbers := s.fields.map fun f => (f.name, f.number) }

def ofDecls (fields : List FieldDecl) (indexes : List IndexDecl) : Schema :=
  numbered ⟨fields, indexes, []⟩

def number? (s : Schema) (name : String) : Option UInt64 :=
  (s.numbers.reverse.find? (·.1 == name)).map (·.2)

def position? (s : Schema) (name : String) : Option Nat := (s.number? name).map (·.toNat)

def field? (s : Schema) (name : String) : Option FieldDecl := (s.position? name).bind (s.fields[·]?)

def index? (s : Schema) (name : String) : Option IndexDecl := s.indexes.find? (·.name == name)

def checkField (s : Schema) (i : Nat) (f : FieldDecl) : Except Error Unit :=
  if f.number.toNat ≠ i then .error (.misnumberedField f.name f.number.toNat i)
  else if f.name = "" then .error (.emptyFieldName i)
  else if s.position? f.name ≠ some i then .error (.duplicateField f.name)
  else .ok ()

def checkFields (s : Schema) : Nat → List FieldDecl → Except Error Unit
  | _, [] => .ok ()
  | i, f :: fs => do
    s.checkField i f
    checkFields s (i + 1) fs

def checkIndex (s : Schema) (earlier : List IndexDecl) (i : IndexDecl) : Except Error Unit :=
  if earlier.any (·.name == i.name) then .error (.duplicateIndex i.name)
  else if i.segments.isEmpty then .error (.emptyIndex i.name)
  else
    match i.segments.find? fun g => (s.position? g.field).isNone with
    | some g => .error (.segmentWithoutField i.name g.field)
    | none => .ok ()

def checkIndexes (s : Schema) : List IndexDecl → List IndexDecl → Except Error Unit
  | _, [] => .ok ()
  | earlier, i :: is => do
    s.checkIndex earlier i
    checkIndexes s (earlier ++ [i]) is

def validate (s : Schema) : Except Error Unit :=
  if s.fields.isEmpty then .error .noFields
  else do
    s.checkFields 0 s.fields
    s.checkIndexes [] s.indexes

def checkValues : List FieldDecl → Row → Except Error Unit
  | f :: fs, v :: vs => do
    f.check v
    checkValues fs vs
  | _, _ => .ok ()

def checkRow (s : Schema) (row : Row) : Except Error Unit :=
  if row.length = s.fields.length then checkValues s.fields row
  else .error (.rowWidth row.length s.fields.length)

def Conforms (s : Schema) (row : Row) : Prop :=
  row.length = s.fields.length ∧ ∀ p ∈ s.fields.zip row, p.1.check p.2 = .ok ()

end Schema
end Isam
