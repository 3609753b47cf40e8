import Isam.Server.State
namespace Isam.Server

def connect (s : Server) (endpoint : String) (c : Credentials) :
    Except Error ConnectionId × Server :=
  if endpoint ≠ s.config.name then (.error (.unknownEngine endpoint s.config.name), s)
  else if !s.config.admits c.user c.password then (.error (.loginRefused c.user), s)
  else (.ok s.nextId,
    { s with nextId := s.nextId + 1, connections := s.connections ++ [s.nextId] })

/-- Takes a handle off the registration of a file. The registration goes with its last handle, and
the mark of an exclusive opening with that handle. -/
def unregister (s : Server) (k : TablePath) (h : HandleId) (mode : OpenMode) : Server :=
  match FiniteMap.get? s.registry k with
  | none => s
  | some r =>
    let rest := r.handles.filter (· != h)
    let r := { r with handles := rest, exclusive := r.exclusive && mode != .exclusive }
    { s with registry :=
        if rest.isEmpty then FiniteMap.erase s.registry k else FiniteMap.set s.registry k r }

def forget (s : Server) (file : FileId) : Server :=
  if s.handles.any (·.2.file == file) then s
  else { s with files := FiniteMap.erase s.files file }

def detach (s : Server) (h : HandleId) (handle : Handle) : Server :=
  let s := { s with handles := FiniteMap.erase s.handles h }
  match FiniteMap.get? s.files handle.file with
  | none => s
  | some f => (s.unregister f.path h handle.mode).forget handle.file

def hasOpen (s : Server) (c : ConnectionId) (file : FileId) : Bool :=
  s.handles.any fun e => e.2.connection == c && e.2.file == file

def close (s : Server) (h : HandleId) : Server :=
  match FiniteMap.get? s.handles h with
  | none => s
  | some handle =>
    let s := s.detach h handle
    -- row locks go with the last handle of the connection on the file
    if s.hasOpen handle.connection handle.file then s
    else { s with locks := s.locks.releaseRows handle.connection handle.file }

def handlesOf (s : Server) (c : ConnectionId) : List HandleId :=
  (s.handles.filter fun e => e.2.connection == c).map (·.1)

def disconnect (s : Server) (c : ConnectionId) : Server :=
  if s.isConnected c then
    let s := { s with connections := s.connections.filter (· != c) }
    let s := (s.handlesOf c).foldl close s
    { s with locks := s.locks.releaseAll c }
  else s

def unlock (s : Server) (c : ConnectionId) : Server := { s with locks := s.locks.releaseAll c }

def acquire (s : Server) (c : ConnectionId) (r : LockResource) (k : LockKind) :
    Except Error Unit × Server :=
  -- one that may wait waits in vain, as no other call can come between
  let (result, locks) := s.locks.acquire c r k
  (result, { s with locks })

def lock (s : Server) (c : ConnectionId) (m : LockMode) : Except Error Unit × Server :=
  match s.checkConnection c with
  | .error e => (.error e, s)
  | .ok () =>
    match m.kind? with
    | none => (.ok (), s.unlock c)
    | some k => s.acquire c .session k

def isLocked (s : Server) (c : ConnectionId) : Bool := (s.locks.holds? c .session).isSome

def lockRow (s : Server) (h : HandleId) (id : RowId) (m : LockMode) : Except Error Unit × Server :=
  match s.opened h with
  | .error e => (.error e, s)
  | .ok (handle, f) =>
    match m.kind? with
    | none => (.ok (), { s with locks := (s.locks.release handle.connection (.row handle.file id)).2 })
    | some k =>
      if f.image.rows.contains id then s.acquire handle.connection (.row handle.file id) k
      else (.error (.noRow id), s)

end Isam.Server
