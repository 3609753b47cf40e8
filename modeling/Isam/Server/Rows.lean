import Isam.Server.Connections
namespace Isam.Server

def stored? (i : Image) (id : RowId) : Option StoredRow := (i.rows.get? id).map (⟨id, ·⟩)

def readSchema (s : Server) (h : HandleId) : Except Error Schema := do
  let (_, f) ← s.opened h
  return f.image.schema

def moveCursor (s : Server) (h : HandleId) (index : Option Nat) (m : CursorMove) :
    Except Error (Option StoredRow) := do
  let (_, f) ← s.opened h
  return (← f.image.moveTo index m).bind (stored? f.image)

def readRow (s : Server) (h : HandleId) (id : RowId) : Except Error (Option StoredRow) := do
  let (_, f) ← s.opened h
  return stored? f.image id

def checkSessionLock (s : Server) (c : ConnectionId) : Except Error Unit :=
  match s.locks.conflictingHolder? c .session .exclusive with
  | some (holder, kind) => .error (.writesBlocked holder kind)
  | none => .ok ()

def checkRowLock (s : Server) (c : ConnectionId) (file : FileId) (id : RowId) :
    Except Error Unit :=
  match s.locks.conflictingHolder? c (.row file id) .exclusive with
  | some (holder, kind) => .error (.rowLocked id kind holder)
  | none => .ok ()

def checkWritable (s : Server) (handle : Handle) (f : OpenFile) : Except Error Unit := do
  if handle.mode = .readOnly then throw (.openedReadOnly f.path.display)
  s.checkSessionLock handle.connection

def checkTarget (s : Server) (handle : Handle) (f : OpenFile) : Option RowId → Except Error Unit
  | none => .ok ()
  | some id => do
    if !f.image.rows.contains id then throw (.noRow id)
    s.checkRowLock handle.connection handle.file id

def checkUnique (i : Image) (row : Row) (target : Option RowId) : Except Error Unit :=
  match i.duplicate? row target with
  | some (index, id) => .error (.duplicateKey index id)
  | none => .ok ()

/-- The next row number has to have one after it. -/
def checkRoom (i : Image) : Option RowId → Except Error Unit
  | none => if i.nextRow.toNat + 1 < UInt64.size then .ok () else .error (.panic .rowNumbers)
  | some _ => .ok ()

def checkWrite (s : Server) (h : HandleId) (target : Option RowId) (row : Row) :
    Except Error (Handle × OpenFile) := do
  let (handle, f) ← s.opened h
  s.checkWritable handle f
  f.image.schema.checkRow row
  s.checkTarget handle f target
  checkUnique f.image row target
  checkRoom f.image target
  return (handle, f)

def checkDelete (s : Server) (h : HandleId) (id : RowId) :
    Except Error (Handle × OpenFile × Row) := do
  let (handle, f) ← s.opened h
  s.checkWritable handle f
  s.checkRowLock handle.connection handle.file id
  match f.image.rows.get? id with
  | some row => return (handle, f, row)
  | none => throw (.noRow id)

end Isam.Server

namespace Isam.Host

/-- Puts an image in place of a file's own and writes it to the disk. Where that fails, the change
is taken back in memory. -/
def rewrite (h : Host) (file : FileId) (f : OpenFile) (i : Image) (takeBack : Image → Image) :
    Bool × Host :=
  let server := h.server.setImage file f i
  match h.disk.replace f.location (TableFile.encode i) with
  | (true, disk) => (true, { server, disk })
  | (false, disk) => (false, { server := server.setImage file f (takeBack i), disk })

def writeRow (h : Host) (id : HandleId) (target : Option RowId) (row : Row) :
    Except Error RowId × Host :=
  match h.server.checkWrite id target row with
  | .error e => (.error e, h)
  | .ok (handle, f) =>
    let (rowId, image) := f.image.store target row
    let before := f.image.rows.get? rowId
    match h.rewrite handle.file f image (·.takeBack rowId before f.image.nextRow) with
    | (true, h) => (.ok rowId, h)
    | (false, h) => (.error .diskFailure, h)

def deleteRow (h : Host) (id : HandleId) (row : RowId) : Except Error Unit × Host :=
  match h.server.checkDelete id row with
  | .error e => (.error e, h)
  | .ok (handle, f, old) =>
    match h.rewrite handle.file f (f.image.remove row) (·.putBack row old) with
    | (true, h) => (.ok (), h)
    | (false, h) => (.error .diskFailure, h)

end Isam.Host
