import Isam.Schema.Basic
namespace Isam

abbrev TableId := Nat

/-- A field as a table hands it out. It knows its table, so that indexes can turn away the fields of
other tables. -/
structure Field where
  table : TableId
  number : Nat
  name : String
  type : FieldType
  length : UInt32
  properties : Properties
  deriving DecidableEq, Repr

namespace Field

def ofDecl (table : TableId) (d : FieldDecl) : Field :=
  ⟨table, d.number.toNat, d.name, d.type, d.length, d.properties⟩

def toDecl (f : Field) : FieldDecl :=
  ⟨f.name, f.type, f.length, UInt64.ofNat f.number, f.properties⟩

def allowsNull (f : Field) : Bool := f.properties.allowsNull

def initialValue (f : Field) : Value :=
  match f.properties.default? with
  | some v => v
  | none => if f.allowsNull then .null else f.type.blank

def display (f : Field) : String := s!"<Field name=\"{f.name}\" type=\"{f.type.name}\">"

theorem toDecl_ofDecl (t : TableId) (d : FieldDecl) : (ofDecl t d).toDecl = d := by
  cases d; simp [ofDecl, toDecl]

end Field
end Isam
