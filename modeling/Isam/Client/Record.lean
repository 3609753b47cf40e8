import Isam.Client.Access
import Isam.Client.Table
namespace Isam

inductive Selector
  | number (n : Nat)
  | named (name : String)
  deriving DecidableEq, Repr

namespace Table

def select (t : Table) : Selector → Except Error Field
  | .number n => t.field n
  | .named name => t.fieldNamed name

def selectIndex (t : Table) : Selector → Except Error Nat
  | .number n => if n < t.indexes.length then .ok n else .error (.noSuchIndexNumber n)
  | .named name => return (← t.indexNamed name).number

def initialValues (t : Table) : Row := t.fields.map (·.initialValue)

end Table

inductive CursorState
  | unpositioned
  | positioned (row : RowId)
  | beyond
  deriving DecidableEq, Repr

namespace CursorState

def row? : CursorState → Option RowId
  | .positioned id => some id
  | _ => none

def describe : CursorState → String
  | .unpositioned => "Unpositioned"
  | .positioned id => s!"Positioned({id.toNat})"
  | .beyond => "End"

end CursorState

/-- A row buffer with a cursor over an open table. It belongs to one binding of its table and is of
no more use when that is closed. -/
structure Record where
  handle : HandleId
  values : Row
  cursor : CursorState := .unpositioned
  /-- The next write inserts, even from a row. -/
  pendingInsert : Bool := false
  index : Option Nat := none
  deriving DecidableEq

namespace Record

variable {σ α : Type}

def ofTable (t : Table) (s : Session σ) : Except Error Record := do
  return {
    handle := ← t.handle s
    values := t.initialValues
    index := if t.indexes.isEmpty then none else some 0 }

def checkBound (r : Record) (t : Table) (s : Session σ) : Except Error Unit :=
  match t.handle s with
  | .ok h => if h = r.handle then .ok () else .error .bindingClosed
  | .error _ => .error .bindingClosed

def load (r : Record) : Option StoredRow → Option RowId × Record
  | none => (none, { r with cursor := .beyond })
  | some row =>
    (some row.id,
      { r with values := row.values, cursor := .positioned row.id, pendingInsert := false })

def move (r : Record) (t : Table) (s : Session σ) (m : CursorMove) (st : σ) :
    Except Error (Option RowId) × Record × σ :=
  match r.checkBound t s with
  | .error e => (.error e, r, st)
  | .ok () =>
    match s.engine.moveCursor r.handle r.index m st with
    | (.error e, st) => (.error e, r, st)
    | (.ok row, st) =>
      let (id, r) := r.load row
      (.ok id, r, st)

def first (r : Record) (t : Table) (s : Session σ) (st : σ) :
    Except Error (Option RowId) × Record × σ := r.move t s .first st

def last (r : Record) (t : Table) (s : Session σ) (st : σ) :
    Except Error (Option RowId) × Record × σ := r.move t s .last st

def moveOn (r : Record) (t : Table) (s : Session σ) (m : RowId → CursorMove) (st : σ) :
    Except Error (Option RowId) × Record × σ :=
  match r.cursor with
  | .positioned id => r.move t s (m id) st
  | _ => ((r.checkBound t s).map fun _ => none, r, st)

def next (r : Record) (t : Table) (s : Session σ) (st : σ) :
    Except Error (Option RowId) × Record × σ := r.moveOn t s .next st

def prev (r : Record) (t : Table) (s : Session σ) (st : σ) :
    Except Error (Option RowId) × Record × σ := r.moveOn t s .prev st

def orEmpty : Except Error (Option RowId) → Except Error RowId
  | .error e => .error e
  | .ok none => .error .emptyTable
  | .ok (some id) => .ok id

def activeIndex? (r : Record) (t : Table) : Option Index := r.index.bind (t.indexes[·]?)

def valueAt (r : Record) (n : Nat) : Except Error Value :=
  match r.values[n]? with
  | some v => .ok v
  | none => .error (.panic (.outsideBuffer n r.values.length))

def searchKey (r : Record) (t : Table) (s : Session σ) : Except Error Key := do
  r.checkBound t s
  match r.activeIndex? t with
  | none => throw .noActiveIndex
  | some i => i.segments.mapM fun g => r.valueAt g.number

def find (r : Record) (t : Table) (s : Session σ) (mode : FindMode) (st : σ) :
    Except Error (Option RowId) × Record × σ :=
  match r.searchKey t s with
  | .error e => (.error e, r, st)
  | .ok key => r.move t s (.find mode key) st

def clear (r : Record) (t : Table) (s : Session σ) : Except Error Record := do
  r.checkBound t s
  return { r with values := t.initialValues, pendingInsert := true }

def target? (r : Record) : Option RowId := if r.pendingInsert then none else r.cursor.row?

def write (r : Record) (t : Table) (s : Session σ) (st : σ) : Except Error RowId × Record × σ :=
  match r.checkBound t s with
  | .error e => (.error e, r, st)
  | .ok () =>
    match s.engine.writeRow r.handle r.target? r.values st with
    | (.error e, st) => (.error e, r, st)
    | (.ok id, st) => (.ok id, { r with cursor := .positioned id, pendingInsert := false }, st)

def current (r : Record) (t : Table) (s : Session σ) : Except Error RowId := do
  r.checkBound t s
  match r.cursor.row? with
  | some id => return id
  | none => throw .notPositioned

def delete (r : Record) (t : Table) (s : Session σ) (st : σ) : Except Error Unit × Record × σ :=
  match r.current t s with
  | .error e => (.error e, r, st)
  | .ok id =>
    match s.engine.deleteRow r.handle id st with
    | (.error e, st) => (.error e, r, st)
    | (.ok (), st) => (.ok (), { r with cursor := .unpositioned, pendingInsert := true }, st)

def lock (r : Record) (t : Table) (s : Session σ) (m : LockMode) : Call σ Unit := fun st =>
  match r.current t s with
  | .error e => (.error e, st)
  | .ok id => s.engine.lockRow r.handle id m st

def setIndex (r : Record) (t : Table) (s : Session σ) (i : Selector) : Except Error Record := do
  r.checkBound t s
  return { r with index := some (← t.selectIndex i), cursor := .unpositioned }

def usePhysicalOrder (r : Record) (t : Table) (s : Session σ) : Except Error Record := do
  r.checkBound t s
  return { r with index := none, cursor := .unpositioned }

def look (r : Record) (t : Table) (s : Session σ) (f : Selector) :
    Except Error (Field × Value) := do
  r.checkBound t s
  let field ← t.select f
  return (field, ← r.valueAt field.number)

def get (r : Record) (t : Table) (s : Session σ) (f : Selector) : Except Error Value :=
  (r.look t s f).map (·.2)

def isNull (r : Record) (t : Table) (s : Session σ) (f : Selector) : Except Error Bool :=
  (r.get t s f).map Value.isNull

def read (r : Record) (t : Table) (s : Session σ) (f : Selector)
    (reading : Field → Except Error Value → Except Error α) : Except Error α := do
  r.checkBound t s
  let field ← t.select f
  reading field (r.valueAt field.number)

def put (r : Record) (n : Nat) (v : Value) : Except Error Record :=
  if n < r.values.length then .ok { r with values := r.values.set n v }
  else .error (.panic (.outsideBuffer n r.values.length))

def set (r : Record) (t : Table) (s : Session σ) (f : Selector) (v : Value) :
    Except Error Record := do
  r.checkBound t s
  let field ← t.select f
  let v ← field.accepted v
  r.put field.number v

/-- Stores what a text stands for. Its form is checked even before the binding is. -/
def setText (r : Record) (t : Table) (s : Session σ) (f : Selector) (text : String) :
    Except Error Record := do
  let field ← t.select f
  let v ← field.ofText s.dateFormat text
  r.set t s f v

def describe (r : Record) (t : Table) : String := Text.labelled "Record" [
  ("table", Text.optional Text.quoted t.name),
  ("cursor", r.cursor.describe),
  ("index", Text.optional Text.quoted ((r.activeIndex? t).map (·.name))),
  ("values", Text.bracketed (r.values.map Value.describe))]

end Record
end Isam
