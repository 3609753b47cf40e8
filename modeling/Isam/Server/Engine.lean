import Isam.Server.Connections
import Isam.Server.Rows
import Isam.Server.Tables
namespace Isam.Host

def served {α : Type} (c : Server → Except Error α × Server) : Call Host α := fun h =>
  let (r, server) := c h.server
  (r, { h with server })

def looked {α : Type} (c : Server → Except Error α) : Call Host α := fun h => (c h.server, h)

def engine : Engine Host where
  name h := h.server.config.name
  connect endpoint c := served (·.connect endpoint c)
  disconnect c := served fun s => (.ok (), s.disconnect c)
  createTable c a s m h := h.createTable c a s m
  openTable c a m h := h.openTable c a m
  closeTable id := served fun s => (.ok (), s.close id)
  readSchema id := looked (·.readSchema id)
  moveCursor id i m := looked (·.moveCursor id i m)
  readRow id r := looked (·.readRow id r)
  writeRow id r row h := h.writeRow id r row
  deleteRow id r h := h.deleteRow id r
  lock c m := served (·.lock c m)
  unlock c := served fun s => (.ok (), s.unlock c)
  isLocked c h := h.server.isLocked c
  lockRow id r m := served (·.lockRow id r m)

end Isam.Host

namespace Isam

structure Site where
  disk : Disk := .empty
  servers : List Server := []

namespace Site

def server (s : Site) (n : Nat) : Server := (s.servers[n]?).getD (Server.start {})

def host (s : Site) (n : Nat) : Host := ⟨s.server n, s.disk⟩

def setHost (s : Site) (n : Nat) (h : Host) : Site :=
  { disk := h.disk, servers := s.servers.set n h.server }

def start (s : Site) (c : EngineConfig) : Nat × Site :=
  (s.servers.length, { s with servers := s.servers ++ [Server.start c] })

def engine (n : Nat) : Engine Site := Host.engine.onPart (host · n) (fun h s => s.setHost n h)

end Site
end Isam
