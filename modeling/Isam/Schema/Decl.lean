import Isam.Field.Check
import Isam.Field.Properties
namespace Isam

structure FieldDecl where
  name : String
  type : FieldType
  length : UInt32
  number : UInt64
  properties : Properties := .none
  deriving DecidableEq, Repr

structure SegmentMode where
  descending : Bool := false
  ignoreCase : Bool := false
  deriving DecidableEq, Repr

structure SegmentDecl where
  field : String
  mode : SegmentMode
  deriving DecidableEq, Repr

inductive IndexKind
  | fixed
  | leading
  | padding
  | leadPad
  | error
  deriving DecidableEq, Repr

namespace IndexKind

def all : List IndexKind := [.fixed, .leading, .padding, .leadPad, .error]

def name : IndexKind → String
  | .fixed => "Fixed"
  | .leading => "Leading"
  | .padding => "Padding"
  | .leadPad => "LeadPad"
  | .error => "Error"

def ofName? (s : String) : Option IndexKind := all.find? (·.name == s)

end IndexKind

/-- An index as a table file declares it. Unless it allows duplicates, no two rows share a key, and
if it allows null keys, rows whose key is all null are exempt. -/
structure IndexDecl where
  name : String
  kind : IndexKind
  allowDuplicates : Bool := false
  allowNullKeys : Bool := true
  segments : List SegmentDecl := []
  deriving DecidableEq, Repr

namespace IndexDecl

def addSegment (i : IndexDecl) (field : String) (mode : SegmentMode) : IndexDecl :=
  { i with segments := i.segments ++ [⟨field, mode⟩] }

end IndexDecl

namespace FieldDecl

def check (f : FieldDecl) (v : Value) : Except Error Unit :=
  if v.isNull && !f.properties.allowsNull then .error (.nullRefused f.name)
  else f.type.checkValue f.length v

end FieldDecl
end Isam
