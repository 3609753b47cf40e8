import Isam.Server.Connections
namespace Isam.Host

def makeParent (d : Disk) (p : Path) : Bool × Disk :=
  if p.parent.isPassable then d.makeDirectories p.parentNames else (false, d)

def checkFree (h : Host) (a : TableAddress) (mode : CreateMode) (k : TablePath) :
    Except Error Unit :=
  if FiniteMap.contains h.server.registry k then .error (.recreatedWhileOpen a.name)
  else if (h.disk.node? k.place).isSome ∧ mode ≠ .overwrite then
    .error (.tableExists a.name k.display)
  else .ok ()

def createAt (h : Host) (c : ConnectionId) (s : Schema) (k : TablePath) :
    Except Error HandleId × Host :=
  let image := Image.ofSchema s
  match h.disk.replace k.place (TableFile.encode image) with
  | (false, disk) => (.error .diskFailure, { h with disk })
  | (true, disk) =>
    let (id, server) := h.server.registerNew c k image .normal
    (.ok id, { server, disk })

def createTable (h : Host) (c : ConnectionId) (a : TableAddress) (s : Schema) (mode : CreateMode) :
    Except Error HandleId × Host :=
  match h.server.checkConnection c, s.numbered.validate with
  | .error e, _ => (.error e, h)
  | .ok (), .error e => (.error e, h)
  | .ok (), .ok () =>
    let p := h.server.path a
    let (made, disk) := makeParent h.disk p
    let h := { h with disk }
    match if made then disk.key? p else none with
    | none => (.error .diskFailure, h)
    | some k =>
      match h.checkFree a mode k with
      | .error e => (.error e, h)
      | .ok () => h.createAt c s.numbered k

def checkShared (a : TableAddress) (mode : OpenMode) (r : Registration) : Except Error Unit :=
  if r.exclusive then .error (.openedExclusively a.name)
  else if mode = .exclusive ∧ !r.handles.isEmpty then .error (.exclusiveDenied a.name)
  else .ok ()

def load (h : Host) (a : TableAddress) (mode : OpenMode) : Except Error Image :=
  match h.disk.key? (h.server.path a) with
  | none => .error (.noTable a.name (h.server.path a).text)
  | some k =>
    match h.disk.node? k.place with
    | none => .error (.noTable a.name k.display)
    | some .directory => .error .diskFailure
    | some (.file bs) =>
      TableFile.decode bs (h.server.config.verifyChecksums && mode != .corrupt)

def openTable (h : Host) (c : ConnectionId) (a : TableAddress) (mode : OpenMode) :
    Except Error HandleId × Host :=
  match h.server.checkConnection c with
  | .error e => (.error e, h)
  | .ok () =>
    let k := h.disk.resolve (h.server.path a)
    match FiniteMap.get? h.server.registry k with
    | some r =>
      match checkShared a mode r with
      | .error e => (.error e, h)
      | .ok () =>
        let (id, server) := h.server.register c k r.file mode
        (.ok id, { h with server })
    | none =>
      match h.load a mode with
      | .error e => (.error e, h)
      | .ok i =>
        let (id, server) := h.server.registerNew c k i mode
        (.ok id, { h with server })

end Isam.Host
