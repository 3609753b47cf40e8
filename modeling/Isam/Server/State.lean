import Isam.Codec.TableFile
import Isam.Config
import Isam.Disk.Tree
import Isam.Engine.Basic
import Isam.Lock.Table
namespace Isam

/-- A table file that is open. All handles on it share its image. -/
structure OpenFile where
  path : TablePath
  image : Image
  deriving DecidableEq

def OpenFile.location (f : OpenFile) : Location := f.path.place

structure Registration where
  file : FileId
  handles : List HandleId := []
  exclusive : Bool := false
  deriving DecidableEq

structure Handle where
  connection : ConnectionId
  file : FileId
  mode : OpenMode
  deriving DecidableEq

/-- The state of an engine apart from the disk. Connections, handles and files draw their numbers
from one counter. -/
structure Server where
  config : EngineConfig
  nextId : Nat := 1
  connections : List ConnectionId := []
  files : FiniteMap FileId OpenFile := []
  registry : FiniteMap TablePath Registration := []
  handles : FiniteMap HandleId Handle := []
  locks : LockTable := {}
  deriving DecidableEq

structure Host where
  server : Server
  disk : Disk

namespace Server

def start (config : EngineConfig) : Server := { config }

def isConnected (s : Server) (c : ConnectionId) : Bool := s.connections.contains c

def checkConnection (s : Server) (c : ConnectionId) : Except Error Unit :=
  if s.isConnected c then .ok () else .error .sessionInactive

def opened (s : Server) (h : HandleId) : Except Error (Handle × OpenFile) :=
  match FiniteMap.get? s.handles h with
  | none => .error (.handleClosed h)
  | some handle =>
    match FiniteMap.get? s.files handle.file with
    | some file => .ok (handle, file)
    | none => .error (.handleClosed h)

def path (s : Server) (a : TableAddress) : Path := s.config.dataDir.join a.file

def register (s : Server) (c : ConnectionId) (k : TablePath) (file : FileId) (mode : OpenMode) :
    HandleId × Server :=
  let r := (FiniteMap.get? s.registry k).getD { file }
  (s.nextId, { s with
    nextId := s.nextId + 1
    registry := FiniteMap.set s.registry k
      { r with handles := r.handles ++ [s.nextId], exclusive := mode == .exclusive }
    handles := FiniteMap.set s.handles s.nextId ⟨c, file, mode⟩ })

def registerNew (s : Server) (c : ConnectionId) (k : TablePath) (i : Image) (mode : OpenMode) :
    HandleId × Server :=
  { s with nextId := s.nextId + 1, files := FiniteMap.set s.files s.nextId ⟨k, i⟩ }.register c k
    s.nextId mode

def setImage (s : Server) (file : FileId) (f : OpenFile) (i : Image) : Server :=
  { s with files := FiniteMap.set s.files file { f with image := i } }

end Server
end Isam
