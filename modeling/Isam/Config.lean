import Isam.Calendar.Format
import Isam.Disk.Path
import Isam.FiniteMap
namespace Isam

inductive Durability
  | synchronous
  | noSync
  deriving DecidableEq, Repr

namespace Durability

def all : List Durability := [.synchronous, .noSync]

def name : Durability → String
  | .synchronous => "Synchronous"
  | .noSync => "NoSync"

def ofName? (s : String) : Option Durability := all.find? (·.name == s)

def flushesEachWrite : Durability → Bool
  | .synchronous => true
  | .noSync => false

def description : Durability → String
  | .synchronous => "synchronous (fsync per write)"
  | .noSync => "no sync (OS buffered)"

end Durability

/-- Settings of an engine. With no users listed every login is welcome. -/
structure EngineConfig where
  name : String := "FAIRCOMS"
  dataDir : Path := ⟨"."⟩
  users : FiniteMap String String := []
  durability : Durability := .synchronous
  verifyChecksums : Bool := true
  deriving DecidableEq, Repr

namespace EngineConfig

def atDirectory (dir : Path) : EngineConfig := { dataDir := dir }

def withoutSync (c : EngineConfig) : EngineConfig := { c with durability := .noSync }

def admits (c : EngineConfig) (user password : String) : Bool :=
  c.users.isEmpty || FiniteMap.get? c.users user = some password

end EngineConfig

inductive SessionMode
  | ctdb
  | ctree
  deriving DecidableEq, Repr

namespace SessionMode

def all : List SessionMode := [.ctdb, .ctree]

def name : SessionMode → String
  | .ctdb => "Ctdb"
  | .ctree => "Ctree"

def ofName? (s : String) : Option SessionMode := all.find? (·.name == s)

end SessionMode

structure SessionConfig where
  mode : SessionMode := .ctree
  dateFormat : DateFormat := .mdcy
  lockTimeout : UInt64 := 5000
  deriving DecidableEq, Repr

end Isam
