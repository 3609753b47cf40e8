import Isam.Storage.Rows
namespace Isam

abbrev Key := List Value

inductive FindMode
  | eq
  | lt
  | le
  | gt
  | ge
  deriving DecidableEq, Repr

namespace FindMode

def accepts : FindMode → Ordering → Bool
  | .eq, o => o == .eq
  | .lt, o => o == .lt
  | .le, o => o != .gt
  | .gt, o => o == .gt
  | .ge, o => o != .lt

def fromEnd : FindMode → Bool
  | .lt | .le => true
  | _ => false

end FindMode

inductive CursorMove
  | first
  | last
  | next (row : RowId)
  | prev (row : RowId)
  | find (mode : FindMode) (key : Key)
  deriving DecidableEq

namespace SegmentMode

def compare (m : SegmentMode) (a b : Value) : Ordering :=
  if m.descending then (a.compareKey m.ignoreCase b).swap else a.compareKey m.ignoreCase b

end SegmentMode

namespace IndexDecl

def compareParts : List SegmentDecl → Key → Key → Ordering
  | g :: gs, a :: as, b :: bs => (g.mode.compare a b).then (compareParts gs as bs)
  | _, _, _ => .eq

def compareKeys (i : IndexDecl) (a b : Key) : Ordering := compareParts i.segments a b

end IndexDecl

namespace Image

def keyOf (s : Schema) (i : IndexDecl) (row : Row) : Key :=
  i.segments.map fun g => ((s.position? g.field).bind (row[·]?)).getD .null

def entryLe (i : IndexDecl) (a b : Key × RowId) : Bool :=
  ((i.compareKeys a.1 b.1).then (compare a.2 b.2)) != .gt

def keyedRows (t : Image) (i : IndexDecl) : List (Key × RowId) :=
  (t.rows.entries.map fun e => (keyOf t.schema i e.2, e.1)).mergeSort (entryLe i)

def indexAt (t : Image) (n : Nat) : Except Error IndexDecl :=
  match t.schema.indexes[n]? with
  | some i => .ok i
  | none => .error (.noIndexNumber n t.schema.indexes.length)

def orderedRows (t : Image) : Option Nat → Except Error (List RowId)
  | none => .ok t.rows.ids
  | some n => do
    let i ← t.indexAt n
    return (t.keyedRows i).map (·.2)

def successor? (ids : List RowId) (id : RowId) : Option (Option RowId) :=
  (ids.idxOf? id).map fun n => ids[n + 1]?

def predecessor? (ids : List RowId) (id : RowId) : Option (Option RowId) :=
  (ids.idxOf? id).map fun n => if n = 0 then none else ids[n - 1]?

def search (i : IndexDecl) (rows : List (Key × RowId)) (mode : FindMode) (key : Key) :
    Option RowId :=
  let rows := if mode.fromEnd then rows.reverse else rows
  (rows.find? fun r => mode.accepts (i.compareKeys r.1 key)).map (·.2)

def moveTo (t : Image) (index : Option Nat) : CursorMove → Except Error (Option RowId)
  | .first => return (← t.orderedRows index).head?
  | .last => return (← t.orderedRows index).getLast?
  | .next id => do
    match successor? (← t.orderedRows index) id with
    | some r => return r
    | none => throw (.noRow id)
  | .prev id => do
    match predecessor? (← t.orderedRows index) id with
    | some r => return r
    | none => throw (.noRow id)
  | .find mode key =>
    match index with
    | none => .error .findInPhysicalOrder
    | some n => do
      let i ← t.indexAt n
      return search i (t.keyedRows i) mode key

/-- A row whose key a unique index cannot tell from the one given, apart from the row `exclude`. A
key of nulls clashes with none where the index allows null keys. -/
def clash? (t : Image) (i : IndexDecl) (row : Row) (exclude : Option RowId) : Option RowId :=
  let key := keyOf t.schema i row
  if i.allowNullKeys && key.all Value.isNull then none
  else
    (t.rows.entries.find? fun e =>
      some e.1 != exclude && i.compareKeys (keyOf t.schema i e.2) key == .eq).map (·.1)

def firstClash (t : Image) (row : Row) (exclude : Option RowId) :
    List IndexDecl → Option (String × RowId)
  | [] => none
  | i :: is =>
    match if i.allowDuplicates then none else t.clash? i row exclude with
    | some id => some (i.name, id)
    | none => firstClash t row exclude is

def duplicate? (t : Image) (row : Row) (exclude : Option RowId) : Option (String × RowId) :=
  t.firstClash row exclude t.schema.indexes

end Image
end Isam
