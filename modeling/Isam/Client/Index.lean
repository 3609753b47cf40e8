import Isam.Client.Field
namespace Isam

structure Segment where
  field : String
  number : Nat
  length : UInt32
  mode : SegmentMode
  deriving DecidableEq, Repr

/-- An index as a table hands it out. It is frozen once the table is created or opened. -/
structure Index where
  table : TableId
  number : Nat
  name : String
  kind : IndexKind
  allowDuplicates : Bool := false
  allowNullKeys : Bool := true
  segments : List Segment := []
  frozen : Bool := false
  deriving DecidableEq, Repr

namespace Index

def checkMutable (i : Index) : Except Error Unit :=
  if i.frozen then .error (.frozenIndex i.name) else .ok ()

def addSegment (i : Index) (f : Field) (mode : SegmentMode) : Except Error Index := do
  i.checkMutable
  if f.table ≠ i.table then throw (.foreignField f.name i.name)
  return { i with segments := i.segments ++ [⟨f.name, f.number, f.length, mode⟩] }

def setAllowDuplicates (i : Index) (allow : Bool) : Except Error Index := do
  i.checkMutable
  return { i with allowDuplicates := allow }

def setAllowNullKeys (i : Index) (allow : Bool) : Except Error Index := do
  i.checkMutable
  return { i with allowNullKeys := allow }

def freeze (i : Index) : Index := { i with frozen := true }

def addDeclared (fields : List Field) (i : Index) (g : SegmentDecl) : Except Error Index :=
  match fields.find? (·.name == g.field) with
  | some f => i.addSegment f g.mode
  | none => .error (.unknownSegmentField i.name g.field)

def ofDecl (table : TableId) (number : Nat) (d : IndexDecl) (fields : List Field) :
    Except Error Index := do
  let i : Index := {
    table, number, name := d.name, kind := d.kind
    allowDuplicates := d.allowDuplicates
    allowNullKeys := d.allowNullKeys }
  return (← d.segments.foldlM (addDeclared fields) i).freeze

def toDecl (i : Index) : IndexDecl :=
  ⟨i.name, i.kind, i.allowDuplicates, i.allowNullKeys, i.segments.map fun g => ⟨g.field, g.mode⟩⟩

def fieldNames (i : Index) : List String := i.segments.map (·.field)

def isUnique (i : Index) : Bool := !i.allowDuplicates

def addLength (n : UInt32) (g : Segment) : Except Error UInt32 :=
  if n.toNat + g.length.toNat < UInt32.size then .ok (n + g.length) else .error (.panic .keyLength)

def keyLength (i : Index) : Except Error UInt32 := i.segments.foldlM addLength 0

def display (i : Index) : String :=
  s!"<Index name=\"{i.name}\" field_names=" ++ Text.bracketed (i.fieldNames.map Text.quoted) ++ ">"

end Index
end Isam
