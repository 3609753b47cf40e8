import Isam.Config
import Isam.Engine.Basic
namespace Isam

/-- A login to an engine. Names and passwords outlast a logout, the connection and the lock do
not. -/
structure Session (σ : Type) where
  engine : Engine σ
  config : SessionConfig
  dateFormat : DateFormat
  connection : Option ConnectionId := none
  endpoint : Option String := none
  username : Option String := none
  password : Option String := none
  pathPrefix : Option String := none
  lockMode : Option LockMode := none

namespace Session

variable {σ : Type}

def ofConfig (e : Engine σ) (c : SessionConfig) : Session σ :=
  { engine := e, config := c, dateFormat := c.dateFormat }

def ofMode (e : Engine σ) (m : SessionMode) : Session σ := ofConfig e { mode := m }

def logon (endpoint user password : String) :
    Session σ → σ → Except Error Unit × Session σ × σ := fun s st =>
  if endpoint = "" then (.error .engineNameRequired, s, st)
  else if s.connection.isSome then (.error (.alreadyLoggedOn (s.endpoint.getD "")), s, st)
  else
    match s.engine.connect endpoint ⟨user, password⟩ st with
    | (.error e, st) => (.error e, s, st)
    | (.ok c, st) =>
      (.ok (), { s with
        connection := some c
        endpoint := some endpoint
        username := some user
        password := some password
        lockMode := none }, st)

def logout : Session σ → σ → Except Error Unit × Session σ × σ := fun s st =>
  -- inactive afterwards, also when the engine refuses
  let left := { s with connection := none, lockMode := none }
  match s.connection with
  | none => (.ok (), left, st)
  | some c =>
    let (r, st) := s.engine.disconnect c st
    (r, left, st)

def isActive (s : Session σ) : Bool := s.connection.isSome

def connected (s : Session σ) : Except Error ConnectionId :=
  match s.connection with
  | some c => .ok c
  | none => .error .sessionInactive

def lock (m : LockMode) : Session σ → σ → Except Error Unit × Session σ × σ := fun s st =>
  match s.connection with
  | none => (.error .sessionInactive, s, st)
  | some c =>
    match s.engine.lock c m st with
    | (.error e, st) => (.error e, s, st)
    | (.ok (), st) => (.ok (), { s with lockMode := if m = .free then none else some m }, st)

def unlock : Session σ → σ → Except Error Unit × Session σ × σ := fun s st =>
  match s.connection with
  | none => (.ok (), s, st)
  | some c =>
    match s.engine.unlock c st with
    | (.error e, st) => (.error e, s, st)
    | (.ok (), st) => (.ok (), { s with lockMode := none }, st)

def isLocked (s : Session σ) (st : σ) : Bool :=
  match s.connection with
  | some c => s.engine.isLocked c st
  | none => false

def nonempty (s : String) : Option String := if s = "" then none else some s

def setPathPrefix (s : Session σ) (text : String) : Session σ :=
  { s with pathPrefix := nonempty text }

def setDateFormat (s : Session σ) (f : DateFormat) : Session σ := { s with dateFormat := f }

def addressOf (s : Session σ) (path : Option String) (name : String) : TableAddress :=
  let dir : Path := match s.pathPrefix, path with
    | some p, some q => Path.join ⟨p⟩ ⟨q⟩
    | some p, none => ⟨p⟩
    | none, some q => ⟨q⟩
    | none, none => ⟨""⟩
  ⟨dir, name⟩

def describe (s : Session σ) (st : σ) : String :=
  let connection (c : ConnectionId) := s!"ConnectionHandle({c})"
  Text.labelled "Session" [
    ("engine", Text.quoted (s.engine.name st)),
    ("mode", s.config.mode.name),
    ("connection", Text.optional connection s.connection),
    ("username", Text.optional Text.quoted s.username),
    ("path_prefix", Text.optional Text.quoted s.pathPrefix)]

end Session
end Isam
