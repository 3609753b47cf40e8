import Isam.Client.Workspace
import Isam.Proofs.FiniteMap
import Isam.Proofs.Server.Run
namespace Isam

inductive SessionCall
  | logon (endpoint user password : String)
  | logout
  | lock (m : LockMode)
  | unlock
  | setPathPrefix (text : String)
  | setDateFormat (f : DateFormat)

inductive IndexEdit
  | allowDuplicates (allow : Bool)
  | allowNullKeys (allow : Bool)
  | addSegment (f : Field) (mode : SegmentMode)

inductive TableCall
  | setPath (text : String)
  | addField (name : String) (type : FieldType) (length : UInt32) (p : Properties)
  | addIndex (name : String) (kind : IndexKind)
  | editIndex (name : String) (edit : IndexEdit)
  | addSegment (index field : String) (mode : SegmentMode)
  | create (name : String) (mode : CreateMode)
  | openStored (name : String) (mode : OpenMode)

inductive RecordCall
  | first
  | last
  | next
  | prev
  | find (mode : FindMode)
  | clear
  | write
  | delete
  | lock (m : LockMode)
  | setIndex (i : Selector)
  | usePhysicalOrder
  | get (f : Selector)
  | set (f : Selector) (v : Value)
  | setText (f : Selector) (text : String)

/-- All that programs do with the sessions, tables and records of one engine, a call at a time. A lock
that is waited for is one that is asked for again after what others did. -/
inductive Act
  | newSession (name : String) (config : SessionConfig)
  | dropSession (name : String)
  | session (name : String) (call : SessionCall)
  | newTable (name session : String)
  | dropTable (name : String)
  | table (name : String) (call : TableCall)
  | close (name : String)
  | newRecord (name table : String)
  | dropRecord (name : String)
  | record (name : String) (call : RecordCall)
  | device (faults : FiniteMap Location Fault)
  | restart (config : EngineConfig)

def changed {α σ : Type} (a : α) (st : σ) : Except Error α → Except Error Unit × α × σ
  | .ok b => (.ok (), b, st)
  | .error e => (.error e, a, st)

variable {σ : Type}

def Session.call : SessionCall → Session σ → σ → Except Error Unit × Session σ × σ
  | .logon endpoint user password, s, st => s.logon endpoint user password st
  | .logout, s, st => s.logout st
  | .lock m, s, st => s.lock m st
  | .unlock, s, st => s.unlock st
  | .setPathPrefix text, s, st => (.ok (), s.setPathPrefix text, st)
  | .setDateFormat f, s, st => (.ok (), s.setDateFormat f, st)

def IndexEdit.apply : IndexEdit → Index → Except Error Index
  | .allowDuplicates allow, i => i.setAllowDuplicates allow
  | .allowNullKeys allow, i => i.setAllowNullKeys allow
  | .addSegment f mode, i => i.addSegment f mode

def Table.call : TableCall → Table → Session σ → σ → Except Error Unit × Table × σ
  | .setPath text, t, _, st => (.ok (), t.setPath text, st)
  | .addField name type length p, t, s, st =>
    changed t st ((t.addField s name type length p).map (·.2))
  | .addIndex name kind, t, s, st => changed t st ((t.addIndex s name kind).map (·.2))
  | .editIndex name edit, t, _, st => changed t st (t.editIndex name edit.apply)
  | .addSegment index field mode, t, _, st => changed t st (t.addSegment index field mode)
  | .create name mode, t, s, st => t.create s name mode st
  | .openStored name mode, t, s, st => t.openStored s name mode st

def Record.call : RecordCall → Record → Table → Session σ → σ → Except Error Unit × Record × σ
  | .first, r, t, s, st => (r.first t s st).map (·.map fun _ => ()) id
  | .last, r, t, s, st => (r.last t s st).map (·.map fun _ => ()) id
  | .next, r, t, s, st => (r.next t s st).map (·.map fun _ => ()) id
  | .prev, r, t, s, st => (r.prev t s st).map (·.map fun _ => ()) id
  | .find mode, r, t, s, st => (r.find t s mode st).map (·.map fun _ => ()) id
  | .clear, r, t, s, st => changed r st (r.clear t s)
  | .write, r, t, s, st => (r.write t s st).map (·.map fun _ => ()) id
  | .delete, r, t, s, st => r.delete t s st
  | .lock m, r, t, s, st => ((r.lock t s m st).1, r, (r.lock t s m st).2)
  | .setIndex i, r, t, s, st => changed r st (r.setIndex t s i)
  | .usePhysicalOrder, r, t, s, st => changed r st (r.usePhysicalOrder t s)
  | .get f, r, t, s, st => ((r.get t s f).map fun _ => (), r, st)
  | .set f v, r, t, s, st => changed r st (r.set t s f v)
  | .setText f text, r, t, s, st => changed r st (r.setText t s f text)

namespace Workspace

def start (config : EngineConfig) (disk : Disk) : Workspace Host :=
  { state := Host.start config disk }

def attempt (w : Workspace Host) : Act → Option (Except Error Unit × Workspace Host)
  | .newSession name config =>
    (w.addSession name (Session.ofConfig Host.engine config)).map (.ok (), ·)
  | .dropSession name => (w.dropSession name).map (.ok (), ·)
  | .session name call => w.onSession name (Session.call call)
  | .newTable name session => (w.addTable name session).map (.ok (), ·)
  | .dropTable name => (w.dropTable name).map (.ok (), ·)
  | .table name call => w.onFreeTable name (Table.call call)
  | .close name => w.onTable name Table.close
  | .newRecord name table =>
    (w.addRecord name table).map fun
      | .ok w => (.ok (), w)
      | .error e => (.error e, w)
  | .dropRecord name => some (.ok (), w.dropRecord name)
  | .record name call => w.onRecord name (Record.call call)
  | .device faults => some (.ok (), { w with state := w.state.next (.device faults) })
  | .restart config => some (.ok (), start config w.state.disk)

def next (w : Workspace Host) (a : Act) : Workspace Host :=
  match w.attempt a with
  | some (_, w) => w
  | none => w

def run (w : Workspace Host) (as : List Act) : Workspace Host := as.foldl next w

open FiniteMap

/-- All that an act can do to a workspace. One that puts a new object in the place of an old one does
two of these. -/
inductive Change (w : Workspace Host) : Workspace Host → Prop
  | session {name : String} {s : Session Host} (call : SessionCall)
    (found : w.session? name = some s) :
    Change w { w with
      state := (s.call call w.state).2.2
      sessions := set w.sessions name (s.call call w.state).2.1 }
  | sessionDropped {name : String} {s : Session Host} (found : w.session? name = some s)
    (free : w.hasTables name = false) :
    Change w { w with
      state := (s.logout w.state).2.2
      sessions := erase w.sessions name }
  | sessionAdded {name : String} (config : SessionConfig) (vacant : w.session? name = none) :
    Change w { w with sessions := set w.sessions name (.ofConfig Host.engine config) }
  | table {name owner : String} {t : Table} {s : Session Host} (call : TableCall)
    (entry : get? w.tables name = some (owner, t)) (found : w.session? owner = some s)
    (free : w.hasRecords name = false) :
    Change w { w with
      state := (t.call call s w.state).2.2
      tables := set w.tables name (owner, (t.call call s w.state).2.1) }
  | closed {name owner : String} {t : Table} {s : Session Host}
    (entry : get? w.tables name = some (owner, t)) (found : w.session? owner = some s) :
    Change w { w with
      state := (t.close s w.state).2.2
      tables := set w.tables name (owner, (t.close s w.state).2.1) }
  | tableDropped {name owner : String} {t : Table} {s : Session Host}
    (entry : get? w.tables name = some (owner, t)) (found : w.session? owner = some s)
    (free : w.hasRecords name = false) :
    Change w { w with
      state := (t.close s w.state).2.2
      tables := erase w.tables name }
  | tableAdded {name owner : String} (vacant : w.table? name = none)
    (free : w.hasRecords name = false) :
    Change w { w with
      tables := set w.tables name (owner, { id := w.nextTable })
      nextTable := w.nextTable + 1 }
  | recordAdded {name table : String} {t : Table} {s : Session Host} {r : Record}
    (found : w.table? table = some (t, s)) (made : Record.ofTable t s = .ok r) :
    Change w { w with records := set w.records name (table, r) }
  | recordDropped (name : String) : Change w (w.dropRecord name)
  | record {name table : String} {r : Record} {t : Table} {s : Session Host} (call : RecordCall)
    (entry : get? w.records name = some (table, r)) (found : w.table? table = some (t, s)) :
    Change w { w with
      state := (r.call call t s w.state).2.2
      records := set w.records name (table, (r.call call t s w.state).2.1) }
  | device (faults : FiniteMap Location Fault) :
    Change w { w with state := w.state.next (.device faults) }
  | restarted (config : EngineConfig) : Change w (start config w.state.disk)

variable {w w' : Workspace Host} {name : String} {r : Except Error Unit}

theorem onSession_eq_some {action : Session Host → Host → Except Error Unit × Session Host × Host}
    (h : w.onSession name action = some (r, w')) : ∃ s, w.session? name = some s ∧
      r = (action s w.state).1 ∧ w' = { w with
        state := (action s w.state).2.2
        sessions := set w.sessions name (action s w.state).2.1 } := by
  obtain ⟨s, found, h⟩ := Option.bind_eq_some_iff.1 h
  cases h
  exact ⟨s, found, rfl, rfl⟩

theorem onTable_eq_some {action : Table → Session Host → Host → Except Error Unit × Table × Host}
    (h : w.onTable name action = some (r, w')) : ∃ owner t s,
      get? w.tables name = some (owner, t) ∧ w.session? owner = some s ∧
      r = (action t s w.state).1 ∧ w' = { w with
        state := (action t s w.state).2.2
        tables := set w.tables name (owner, (action t s w.state).2.1) } := by
  obtain ⟨⟨owner, t⟩, entry, h⟩ := Option.bind_eq_some_iff.1 h
  obtain ⟨s, found, h⟩ := Option.bind_eq_some_iff.1 h
  cases h
  exact ⟨owner, t, s, entry, found, rfl, rfl⟩

theorem onFreeTable_eq_some
    {action : Table → Session Host → Host → Except Error Unit × Table × Host}
    (h : w.onFreeTable name action = some (r, w')) :
    w.hasRecords name = false ∧ w.onTable name action = some (r, w') := by
  unfold onFreeTable at h
  split at h
  · cases h
  · rename_i hfree
    exact ⟨Bool.eq_false_iff.2 hfree, h⟩

theorem onRecord_eq_some
    {action : Record → Table → Session Host → Host → Except Error Unit × Record × Host}
    (h : w.onRecord name action = some (r, w')) : ∃ table record t s,
      get? w.records name = some (table, record) ∧ w.table? table = some (t, s) ∧
      r = (action record t s w.state).1 ∧ w' = { w with
        state := (action record t s w.state).2.2
        records := set w.records name (table, (action record t s w.state).2.1) } := by
  obtain ⟨⟨table, record⟩, entry, h⟩ := Option.bind_eq_some_iff.1 h
  obtain ⟨⟨t, s⟩, found, h⟩ := Option.bind_eq_some_iff.1 h
  cases h
  exact ⟨table, record, t, s, entry, found, rfl, rfl⟩

theorem dropSession_eq_some (h : w.dropSession name = some w') :
    (w' = w ∨ w.Change w') ∧ w'.records = w.records ∧ w'.session? name = none := by
  unfold dropSession at h
  split at h
  · cases h
  · rename_i hfree
    split at h
    · rename_i hout
      obtain ⟨s, found, -, rfl⟩ := onSession_eq_some hout
      cases h
      simp only [erase_set]
      refine ⟨.inr (.sessionDropped found (Bool.eq_false_iff.2 hfree)), trivial, ?_⟩
      simp [session?, get?_erase]
    · rename_i hout
      cases h
      refine ⟨.inl rfl, rfl, ?_⟩
      cases hs : w.session? name with
      | none => rfl
      | some s => simp [onSession, hs] at hout

theorem dropTable_eq_some (h : w.dropTable name = some w') :
    (w' = w ∨ w.Change w') ∧ w'.records = w.records ∧ w'.table? name = none ∧
      w'.hasRecords name = false := by
  unfold dropTable at h
  split at h
  · cases h
  · rename_i hfree
    have hfree := Bool.eq_false_iff.2 hfree
    split at h
    · rename_i hout
      obtain ⟨owner, t, s, entry, found, -, rfl⟩ := onTable_eq_some hout
      cases h
      simp only [erase_set]
      refine ⟨.inr (.tableDropped entry found hfree), trivial, ?_, hfree⟩
      simp [table?, get?_erase]
    · rename_i hout
      cases h
      refine ⟨.inl rfl, rfl, ?_, hfree⟩
      cases ht : get? w.tables name with
      | none => simp [table?, ht]
      | some e =>
        cases hs : w.session? e.1 with
        | none => simp [table?, ht, hs]
        | some s => simp [onTable, ht, hs] at hout

theorem attempt_changes {a : Act} (h : w.attempt a = some (r, w')) :
    ∃ w₁, w₁.records = w.records ∧ (w₁ = w ∨ w.Change w₁) ∧ (w' = w₁ ∨ w₁.Change w') := by
  cases a with
  | newSession name config =>
    obtain ⟨w', h, ⟨⟩⟩ := Option.map_eq_some_iff.1 h
    obtain ⟨w₁, dropped, h⟩ := Option.bind_eq_some_iff.1 h
    obtain ⟨first, records, vacant⟩ := dropSession_eq_some dropped
    cases h
    exact ⟨w₁, records, first, .inr (.sessionAdded config vacant)⟩
  | dropSession name =>
    obtain ⟨w', h, ⟨⟩⟩ := Option.map_eq_some_iff.1 h
    obtain ⟨first, records, -⟩ := dropSession_eq_some h
    exact ⟨w', records, first, .inl rfl⟩
  | session name call =>
    simp only [attempt] at h
    obtain ⟨s, found, -, rfl⟩ := onSession_eq_some h
    exact ⟨w, rfl, .inl rfl, .inr (.session call found)⟩
  | newTable name session =>
    obtain ⟨w', h, ⟨⟩⟩ := Option.map_eq_some_iff.1 h
    obtain ⟨⟨⟩, -, h⟩ := Option.bind_eq_some_iff.1 h
    obtain ⟨w₁, dropped, h⟩ := Option.bind_eq_some_iff.1 h
    obtain ⟨first, records, vacant, free⟩ := dropTable_eq_some dropped
    cases h
    exact ⟨w₁, records, first, .inr (.tableAdded vacant free)⟩
  | dropTable name =>
    obtain ⟨w', h, ⟨⟩⟩ := Option.map_eq_some_iff.1 h
    obtain ⟨first, records, -⟩ := dropTable_eq_some h
    exact ⟨w', records, first, .inl rfl⟩
  | table name call =>
    obtain ⟨free, h⟩ := onFreeTable_eq_some h
    obtain ⟨owner, t, s, entry, found, -, rfl⟩ := onTable_eq_some h
    exact ⟨w, rfl, .inl rfl, .inr (.table call entry found free)⟩
  | close name =>
    simp only [attempt] at h
    obtain ⟨owner, t, s, entry, found, -, rfl⟩ := onTable_eq_some h
    exact ⟨w, rfl, .inl rfl, .inr (.closed entry found)⟩
  | newRecord name table =>
    obtain ⟨added, h, hr⟩ := Option.map_eq_some_iff.1 h
    obtain ⟨⟨t, s⟩, found, h⟩ := Option.bind_eq_some_iff.1 h
    cases hmade : Record.ofTable t s with
    | error e =>
      simp only [hmade] at h
      cases h
      cases hr
      exact ⟨w, rfl, .inl rfl, .inl rfl⟩
    | ok record =>
      simp only [hmade] at h
      cases h
      cases hr
      exact ⟨w, rfl, .inl rfl, .inr (.recordAdded found hmade)⟩
  | dropRecord name =>
    cases h
    exact ⟨w, rfl, .inl rfl, .inr (.recordDropped name)⟩
  | record name call =>
    simp only [attempt] at h
    obtain ⟨table, record, t, s, entry, found, -, rfl⟩ := onRecord_eq_some h
    exact ⟨w, rfl, .inl rfl, .inr (.record call entry found)⟩
  | device faults =>
    cases h
    exact ⟨w, rfl, .inl rfl, .inr (.device faults)⟩
  | restart config =>
    cases h
    exact ⟨w, rfl, .inl rfl, .inr (.restarted config)⟩

theorem next_keeps {P : Workspace Host → Prop} (step : ∀ {w w'}, w.Change w' → P w → P w')
    (a : Act) (start : P w) : P (w.next a) := by
  unfold next
  split
  · rename_i h
    obtain ⟨w₁, -, first, second⟩ := attempt_changes h
    have middle : P w₁ := first.elim (fun heq => heq ▸ start) fun change => step change start
    exact second.elim (fun heq => heq ▸ middle) fun change => step change middle
  · exact start

theorem run_keeps {P : Workspace Host → Prop} (step : ∀ w a, P w → P (next w a)) (as : List Act)
    {w : Workspace Host} (start : P w) : P (w.run as) := by
  induction as generalizing w with
  | nil => exact start
  | cons a as ih => exact ih (step w a start)

end Workspace
end Isam
