import Isam.Client.Index
import Isam.Client.Session
namespace Isam

structure Binding where
  connection : ConnectionId
  handle : HandleId
  mode : OpenMode
  deriving DecidableEq, Repr

/-- A table in two phases: it collects fields and indexes, until `create` or `open` binds it to
storage. -/
structure Table where
  id : TableId
  path : Option String := none
  name : Option String := none
  fields : List Field := []
  numbers : FiniteMap String Nat := []
  indexes : List Index := []
  binding : Option Binding := none
  deriving DecidableEq

namespace Table

variable {σ : Type}

def setPath (t : Table) (text : String) : Table := { t with path := Session.nonempty text }

/-- The binding, if it was made on the session's present connection. An earlier one is dead: its
handle went with its connection. -/
def live? (t : Table) (s : Session σ) : Option Binding :=
  t.binding.filter fun b => s.connection == some b.connection

def isOpen (t : Table) (s : Session σ) : Bool := (t.live? s).isSome

def openMode? (t : Table) (s : Session σ) : Option OpenMode := (t.live? s).map (·.mode)

def checkUnbound (t : Table) (s : Session σ) (attempt : String) : Except Error Unit :=
  if t.isOpen s then .error (.tableIsOpen attempt) else .ok ()

def checkDefault (name : String) (type : FieldType) (length : UInt32) (p : Properties) :
    Except Error Unit :=
  match p.default? with
  | none => .ok ()
  | some v =>
    match type.checkValue length v with
    | .ok () => .ok ()
    | .error e => .error (.badDefault name e)

def addField (t : Table) (s : Session σ) (name : String) (type : FieldType) (length : UInt32)
    (p : Properties) : Except Error (Field × Table) := do
  t.checkUnbound s "add fields"
  if name = "" then throw .fieldNameRequired
  if FiniteMap.contains t.numbers name then throw (.fieldExists name)
  type.checkLength length
  checkDefault name type length p
  let f : Field := ⟨t.id, t.fields.length, name, type, length, p⟩
  return (f, { t with
    fields := t.fields ++ [f]
    numbers := FiniteMap.set t.numbers name t.fields.length })

def addIndex (t : Table) (s : Session σ) (name : String) (kind : IndexKind) :
    Except Error (Index × Table) := do
  t.checkUnbound s "add indexes"
  if name = "" then throw .indexNameRequired
  if t.indexes.any (·.name == name) then throw (.indexExists name)
  let i : Index := { table := t.id, number := t.indexes.length, name, kind }
  return (i, { t with indexes := t.indexes ++ [i] })

def field (t : Table) (number : Nat) : Except Error Field :=
  match t.fields[number]? with
  | some f => .ok f
  | none => .error (.noFieldNumber number t.fields.length)

def fieldNamed (t : Table) (name : String) : Except Error Field :=
  match (FiniteMap.get? t.numbers name).bind (t.fields[·]?) with
  | some f => .ok f
  | none => .error (.noField name)

def indexNamed (t : Table) (name : String) : Except Error Index :=
  match t.indexes.find? (·.name == name) with
  | some i => .ok i
  | none => .error (.noIndex name)

def replaceIndex (new : Index) : List Index → List Index
  | [] => []
  | i :: is => if i.name == new.name then new :: is else i :: replaceIndex new is

def editIndex (t : Table) (name : String) (edit : Index → Except Error Index) :
    Except Error Table := do
  let i ← edit (← t.indexNamed name)
  return { t with indexes := replaceIndex i t.indexes }

def addSegment (t : Table) (index field : String) (mode : SegmentMode) : Except Error Table := do
  let f ← t.fieldNamed field
  t.editIndex index (·.addSegment f mode)

def schema (t : Table) : Schema :=
  Schema.ofDecls (t.fields.map (·.toDecl)) (t.indexes.map (·.toDecl))

def checkCreate (t : Table) (s : Session σ) (name : String) : Except Error ConnectionId := do
  t.checkUnbound s "create"
  if name = "" then throw .tableNameRequired
  match t.indexes.find? (·.segments.isEmpty) with
  | some i => throw (.emptyIndex i.name)
  | none => s.connected

def create (t : Table) (s : Session σ) (name : String) (mode : CreateMode) (st : σ) :
    Except Error Unit × Table × σ :=
  match t.checkCreate s name with
  | .error e => (.error e, t, st)
  | .ok c =>
    match s.engine.createTable c (s.addressOf t.path name) t.schema mode st with
    | (.error e, st) => (.error e, t, st)
    | (.ok h, st) =>
      (.ok (), { t with
        indexes := t.indexes.map (·.freeze)
        name := some name
        binding := some ⟨c, h, .normal⟩ }, st)

def checkOpen (t : Table) (s : Session σ) (name : String) : Except Error ConnectionId := do
  t.checkUnbound s "open"
  if name = "" then throw .tableNameRequired
  s.connected

def indexesOf (id : TableId) (fields : List Field) :
    Nat → List IndexDecl → Except Error (List Index)
  | _, [] => .ok []
  | n, d :: ds => do
    let i ← Index.ofDecl id n d fields
    return i :: (← indexesOf id fields (n + 1) ds)

def load (t : Table) (s : Schema) : Except Error Table := do
  let fields := s.fields.map (Field.ofDecl t.id)
  let indexes ← indexesOf t.id fields 0 s.indexes
  return { t with
    fields, indexes
    numbers := fields.foldl (fun m f => FiniteMap.set m f.name f.number) [] }

/-- Binds the table to storage that is there and takes over its schema. A handle that turns out to
be of no use is given back. -/
def openStored (t : Table) (s : Session σ) (name : String) (mode : OpenMode) (st : σ) :
    Except Error Unit × Table × σ :=
  match t.checkOpen s name with
  | .error e => (.error e, t, st)
  | .ok c =>
    match s.engine.openTable c (s.addressOf t.path name) mode st with
    | (.error e, st) => (.error e, t, st)
    | (.ok h, st) =>
      let (schema, st) := s.engine.readSchema h st
      match schema.bind t.load with
      | .ok loaded => (.ok (), { loaded with name := some name, binding := some ⟨c, h, mode⟩ }, st)
      | .error e =>
        match s.engine.closeTable h st with
        | (.ok (), st) => (.error e, t, st)
        | (.error e, st) => (.error e, t, st)

def close (t : Table) (s : Session σ) (st : σ) : Except Error Unit × Table × σ :=
  match t.binding with
  | none => (.ok (), t, st)
  | some b =>
    let (r, st) := s.engine.closeTable b.handle st
    (r, { t with binding := none }, st)

def handle (t : Table) (s : Session σ) : Except Error HandleId :=
  match t.live? s with
  | some b => .ok b.handle
  | none => .error (.tableNotOpen t.name)

def fieldNames (t : Table) : List String := t.fields.map (·.name)

def describe (t : Table) (s : Session σ) : String := Text.labelled "Table" [
  ("name", Text.optional Text.quoted t.name),
  ("path", Text.optional Text.quoted t.path),
  ("fields", Text.bracketed (t.fieldNames.map Text.quoted)),
  ("open", toString (t.isOpen s))]

end Table
end Isam
