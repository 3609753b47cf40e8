import Isam.Disk.Path
import Isam.Storage.Order
namespace Isam

structure Credentials where
  user : String
  password : String
  deriving DecidableEq, Repr

structure StoredRow where
  id : RowId
  values : Row
  deriving DecidableEq

/-- How a table is opened. An exclusive opening suffers no other one, a corrupt one passes over the
checksum, a read-only one refuses writes; the others are only noted. -/
inductive OpenMode
  | normal
  | dataOnly
  | exclusive
  | permanent
  | corrupt
  | checkLock
  | checkRead
  | readOnly
  deriving DecidableEq, Repr

namespace OpenMode

def all : List OpenMode :=
  [.normal, .dataOnly, .exclusive, .permanent, .corrupt, .checkLock, .checkRead, .readOnly]

def name : OpenMode → String
  | .normal => "Normal"
  | .dataOnly => "DataOnly"
  | .exclusive => "Exclusive"
  | .permanent => "Permanent"
  | .corrupt => "Corrupt"
  | .checkLock => "CheckLock"
  | .checkRead => "CheckRead"
  | .readOnly => "ReadOnly"

def ofName? (s : String) : Option OpenMode := all.find? (·.name == s)

end OpenMode

inductive CreateMode
  | normal
  | writeThru
  | overwrite
  deriving DecidableEq, Repr

/-- A call changes a state and answers or fails. A failed call may have changed the state too. -/
abbrev Call (σ α : Type) := σ → Except Error α × σ

namespace Call

variable {σ τ α : Type}

def fail (e : Error) : Call σ α := fun s => (.error e, s)

def onPart (get : τ → σ) (set : σ → τ → τ) (c : Call σ α) : Call τ α := fun t =>
  let (r, s) := c (get t)
  (r, set s t)

end Call

structure Engine (σ : Type) where
  name : σ → String
  connect : String → Credentials → Call σ ConnectionId
  disconnect : ConnectionId → Call σ Unit
  createTable : ConnectionId → TableAddress → Schema → CreateMode → Call σ HandleId
  openTable : ConnectionId → TableAddress → OpenMode → Call σ HandleId
  closeTable : HandleId → Call σ Unit
  readSchema : HandleId → Call σ Schema
  moveCursor : HandleId → Option Nat → CursorMove → Call σ (Option StoredRow)
  readRow : HandleId → RowId → Call σ (Option StoredRow)
  writeRow : HandleId → Option RowId → Row → Call σ RowId
  deleteRow : HandleId → RowId → Call σ Unit
  lock : ConnectionId → LockMode → Call σ Unit
  unlock : ConnectionId → Call σ Unit
  isLocked : ConnectionId → σ → Bool
  lockRow : HandleId → RowId → LockMode → Call σ Unit

namespace Engine

variable {σ τ : Type}

def onPart (get : τ → σ) (set : σ → τ → τ) (e : Engine σ) : Engine τ where
  name t := e.name (get t)
  connect endpoint c := (e.connect endpoint c).onPart get set
  disconnect c := (e.disconnect c).onPart get set
  createTable c a s m := (e.createTable c a s m).onPart get set
  openTable c a m := (e.openTable c a m).onPart get set
  closeTable h := (e.closeTable h).onPart get set
  readSchema h := (e.readSchema h).onPart get set
  moveCursor h i m := (e.moveCursor h i m).onPart get set
  readRow h r := (e.readRow h r).onPart get set
  writeRow h r row := (e.writeRow h r row).onPart get set
  deleteRow h r := (e.deleteRow h r).onPart get set
  lock c m := (e.lock c m).onPart get set
  unlock c := (e.unlock c).onPart get set
  isLocked c t := e.isLocked c (get t)
  lockRow h r m := (e.lockRow h r m).onPart get set

inductive Fault
  | unlock
  | disconnect
  | close
  | schema
  | write
  | delete
  | ghost
  deriving DecidableEq, Repr

def haunted (s : Schema) : Schema :=
  match s.fields with
  | [] => s
  | f :: _ =>
    let i : IndexDecl := { name := "haunted", kind := .fixed }
    { s with indexes := s.indexes ++
        [(i.addSegment f.name {}).addSegment "ghost" { descending := true }] }

def faulty (e : Engine σ) (f : Fault) : Engine σ := { e with
  name := fun _ => "FAULTY"
  unlock := fun c => if f = .unlock then Call.fail (.callRefused "unlock") else e.unlock c
  disconnect := fun c =>
    if f = .disconnect then Call.fail (.callRefused "disconnect") else e.disconnect c
  closeTable := fun h => if f = .close then Call.fail (.callRefused "close") else e.closeTable h
  readSchema := fun h =>
    if f = .schema then Call.fail (.callRefused "schema")
    else if f = .ghost then fun s =>
      let (r, s) := e.readSchema h s
      (r.map haunted, s)
    else e.readSchema h
  writeRow := fun h r row =>
    if f = .write then Call.fail (.callRefused "write") else e.writeRow h r row
  deleteRow := fun h r =>
    if f = .delete then Call.fail (.callRefused "delete") else e.deleteRow h r }

end Engine
end Isam
