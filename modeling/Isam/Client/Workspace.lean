import Isam.Client.Record
namespace Isam

/-- Sessions, tables and records by name, at work on one state. A table belongs to a session and a
record to a table, which they are kept with the name of. -/
structure Workspace (σ : Type) where
  state : σ
  sessions : FiniteMap String (Session σ) := []
  tables : FiniteMap String (String × Table) := []
  records : FiniteMap String (String × Record) := []
  nextTable : TableId := 0

namespace Workspace

variable {σ α : Type}

def session? (w : Workspace σ) (name : String) : Option (Session σ) :=
  FiniteMap.get? w.sessions name

def table? (w : Workspace σ) (name : String) : Option (Table × Session σ) := do
  let (owner, t) ← FiniteMap.get? w.tables name
  return (t, ← w.session? owner)

def record? (w : Workspace σ) (name : String) : Option (Record × Table × Session σ) := do
  let (owner, r) ← FiniteMap.get? w.records name
  return (r, ← w.table? owner)

def hasRecords (w : Workspace σ) (table : String) : Bool := w.records.any (·.2.1 == table)

def hasTables (w : Workspace σ) (session : String) : Bool := w.tables.any (·.2.1 == session)

def onState (w : Workspace σ) (c : Call σ α) : Except Error α × Workspace σ :=
  let (r, state) := c w.state
  (r, { w with state })

/-! An action on a name that is not there, or that others depend on, is `none`. -/

def onSession (w : Workspace σ) (name : String)
    (action : Session σ → σ → Except Error α × Session σ × σ) :
    Option (Except Error α × Workspace σ) := do
  let (r, s, state) := action (← w.session? name) w.state
  return (r, { w with state, sessions := FiniteMap.set w.sessions name s })

def onTable (w : Workspace σ) (name : String)
    (action : Table → Session σ → σ → Except Error α × Table × σ) :
    Option (Except Error α × Workspace σ) := do
  let (owner, t) ← FiniteMap.get? w.tables name
  let (r, t, state) := action t (← w.session? owner) w.state
  return (r, { w with state, tables := FiniteMap.set w.tables name (owner, t) })

def onFreeTable (w : Workspace σ) (name : String)
    (action : Table → Session σ → σ → Except Error α × Table × σ) :
    Option (Except Error α × Workspace σ) :=
  if w.hasRecords name then none else w.onTable name action

def onRecord (w : Workspace σ) (name : String)
    (action : Record → Table → Session σ → σ → Except Error α × Record × σ) :
    Option (Except Error α × Workspace σ) := do
  let (owner, r) ← FiniteMap.get? w.records name
  let (t, s) ← w.table? owner
  let (result, r, state) := action r t s w.state
  return (result, { w with state, records := FiniteMap.set w.records name (owner, r) })

/-! Dropping what is not there does nothing. -/

def dropRecord (w : Workspace σ) (name : String) : Workspace σ :=
  { w with records := FiniteMap.erase w.records name }

def dropTable (w : Workspace σ) (name : String) : Option (Workspace σ) :=
  if w.hasRecords name then none
  else
    match w.onTable name Table.close with
    | some (_, w) => some { w with tables := FiniteMap.erase w.tables name }
    | none => some w

def dropSession (w : Workspace σ) (name : String) : Option (Workspace σ) :=
  if w.hasTables name then none
  else
    match w.onSession name Session.logout with
    | some (_, w) => some { w with sessions := FiniteMap.erase w.sessions name }
    | none => some w

def addSession (w : Workspace σ) (name : String) (s : Session σ) : Option (Workspace σ) := do
  let w ← w.dropSession name
  return { w with sessions := FiniteMap.set w.sessions name s }

def addTable (w : Workspace σ) (name session : String) : Option (Workspace σ) := do
  guard (w.session? session).isSome
  let w ← w.dropTable name
  return { w with
    tables := FiniteMap.set w.tables name (session, { id := w.nextTable })
    nextTable := w.nextTable + 1 }

def addRecord (w : Workspace σ) (name table : String) : Option (Except Error (Workspace σ)) := do
  let (t, s) ← w.table? table
  return do
    let r ← Record.ofTable t s
    return { w with records := FiniteMap.set w.records name (table, r) }

end Workspace
end Isam
