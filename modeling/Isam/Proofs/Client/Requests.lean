import Isam.Proofs.Client.Acts
import Isam.Proofs.Server.Orphans
namespace Isam

def Request.OnTables : Request → Prop
  | .connect .. | .disconnect _ | .lock .. | .unlock _ => False
  | _ => True

def Request.OnRows : Request → Prop
  | .readSchema _ | .moveCursor .. | .readRow .. | .writeRow .. | .deleteRow .. | .lockRow .. => True
  | _ => False

def Event.On (P : Request → Prop) : Event → Prop
  | .call q => P q
  | .device _ | .restart _ => False

namespace Host

def Reaches (P : Event → Prop) (h h' : Host) : Prop := ∃ es, (∀ e ∈ es, P e) ∧ h' = h.run es

namespace Reaches

variable {P Q : Event → Prop} {h h' h'' : Host}

theorem refl (P : Event → Prop) (h : Host) : h.Reaches P h := ⟨[], nofun, rfl⟩

theorem next {e : Event} (he : P e) : h.Reaches P (h.next e) :=
  ⟨[e], fun _ hmem => List.mem_singleton.1 hmem ▸ he, rfl⟩

theorem call (q : Request) (hq : P (.call q)) : h.Reaches P (h.perform q) := next hq

theorem trans (r : h.Reaches P h') (k : h'.Reaches P h'') : h.Reaches P h'' := by
  obtain ⟨es, hes, rfl⟩ := r
  obtain ⟨fs, hfs, rfl⟩ := k
  refine ⟨es ++ fs, fun e he => ?_, (run_append h es fs).symm⟩
  exact (List.mem_append.1 he).elim (hes e) (hfs e)

theorem mono (r : h.Reaches P h') (hPQ : ∀ e, P e → Q e) : h.Reaches Q h' := by
  obtain ⟨es, hes, rfl⟩ := r
  exact ⟨es, fun e he => hPQ e (hes e he), rfl⟩

theorem on_mono {P Q : Request → Prop} (r : h.Reaches (Event.On P) h') (hPQ : ∀ q, P q → Q q) :
    h.Reaches (Event.On Q) h' := by
  refine r.mono fun e he => ?_
  cases e with
  | call q => exact hPQ q he
  | device | restart => exact he.elim

theorem keeps {R : Host → Prop} (r : h.Reaches P h')
    (step : ∀ h e, P e → R h → R (h.next e)) (start : R h) : R h' := by
  obtain ⟨es, hes, rfl⟩ := r
  induction es generalizing h with
  | nil => exact start
  | cons e es ih =>
    exact ih (step h e (hes e List.mem_cons_self) start)
      fun e' he' => hes e' (List.mem_cons_of_mem _ he')

end Reaches

def Once (P : Request → Prop) (h h' : Host) : Prop := h' = h ∨ ∃ q, P q ∧ h' = h.perform q

variable {P : Request → Prop} {h h' : Host}

theorem Once.none (P : Request → Prop) (h : Host) : h.Once P h := .inl rfl

theorem Once.request {q : Request} (hq : P q) : h.Once P (h.perform q) := .inr ⟨q, hq, rfl⟩

theorem Once.reaches (once : h.Once P h') : h.Reaches (Event.On P) h' := by
  rcases once with rfl | ⟨q, hq, rfl⟩
  · exact .refl _ _
  · exact .call q hq

end Host

variable {h : Host} {s : Session Host}

/-! The requests that calls of a client make. -/

def Session.Asks : Request → Prop
  | .connect .. | .disconnect _ | .lock .. | .unlock _ => True
  | _ => False

def Table.Asks (t : Table) : Request → Prop
  | .createTable _ _ schema _ => schema = t.schema
  | .openTable .. | .closeTable _ | .readSchema _ => True
  | _ => False

theorem Request.OnRows.onTables {q : Request} (hq : q.OnRows) : q.OnTables := by
  cases q <;> trivial

theorem Table.onTables (t : Table) (q : Request) (hq : t.Asks q) : q.OnTables := by
  cases q <;> trivial

theorem Session.call_reaches (he : s.engine = Host.engine) (c : SessionCall) (h : Host) :
    h.Reaches (Event.On Session.Asks) (s.call c h).2.2 := by
  cases c with
  | setPathPrefix | setDateFormat => exact .refl _ h
  | logon endpoint user password =>
    simp only [Session.call, Session.logon, he]
    split
    · exact .refl _ h
    · split
      · exact .refl _ h
      · have hcall : h.Reaches (Event.On Session.Asks)
            (Host.engine.connect endpoint ⟨user, password⟩ h).2 := .call (.connect _ _) trivial
        generalize Host.engine.connect endpoint ⟨user, password⟩ h = x at hcall ⊢
        obtain ⟨_ | _, _⟩ := x <;> exact hcall
  | logout =>
    simp only [Session.call, Session.logout, he]
    split
    · exact .refl _ h
    · exact .call (.disconnect _) trivial
  | lock m =>
    simp only [Session.call, Session.lock, he]
    split
    · exact .refl _ h
    · rename_i c _
      have hcall : h.Reaches (Event.On Session.Asks) (Host.engine.lock c m h).2 :=
        .call (.lock c m) trivial
      generalize Host.engine.lock c m h = x at hcall ⊢
      obtain ⟨_ | _, _⟩ := x <;> exact hcall
  | unlock =>
    simp only [Session.call, Session.unlock, he]
    split
    · exact .refl _ h
    · exact .call (.unlock _) trivial

theorem Session.call_engine {σ : Type} (c : SessionCall) (s : Session σ) (st : σ) :
    (s.call c st).2.1.engine = s.engine := by
  cases c with
  | setPathPrefix | setDateFormat => rfl
  | logon =>
    simp only [Session.call, Session.logon]
    split
    · rfl
    · split
      · rfl
      · split <;> rfl
  | logout =>
    simp only [Session.call, Session.logout]
    split <;> rfl
  | lock =>
    simp only [Session.call, Session.lock]
    split
    · rfl
    · split <;> rfl
  | unlock =>
    simp only [Session.call, Session.unlock]
    split
    · rfl
    · split <;> rfl

theorem Table.create_reaches (t : Table) (he : s.engine = Host.engine) (name : String)
    (m : CreateMode) (h : Host) : h.Reaches (Event.On t.Asks) (t.create s name m h).2.2 := by
  simp only [Table.create, he]
  split
  · exact .refl _ h
  · rename_i c _
    have hcall : h.Reaches (Event.On t.Asks)
        (Host.engine.createTable c (s.addressOf t.path name) t.schema m h).2 :=
      .call (.createTable c (s.addressOf t.path name) t.schema m) rfl
    generalize Host.engine.createTable c (s.addressOf t.path name) t.schema m h = x at hcall ⊢
    obtain ⟨_ | _, _⟩ := x <;> exact hcall

theorem Table.openStored_reaches (t : Table) (he : s.engine = Host.engine) (name : String)
    (m : OpenMode) (h : Host) : h.Reaches (Event.On t.Asks) (t.openStored s name m h).2.2 := by
  simp only [Table.openStored, he]
  split
  · exact .refl _ h
  · rename_i c _
    have hcall : h.Reaches (Event.On t.Asks)
        (Host.engine.openTable c (s.addressOf t.path name) m h).2 :=
      .call (.openTable c (s.addressOf t.path name) m) trivial
    generalize Host.engine.openTable c (s.addressOf t.path name) m h = x at hcall ⊢
    obtain ⟨_ | id, h'⟩ := x
    · exact hcall
    · simp only
      split
      · exact hcall
      · exact hcall.trans (.call (.closeTable id) trivial)

theorem Table.close_reaches (t : Table) (he : s.engine = Host.engine) (h : Host) :
    h.Reaches (Event.On t.Asks) (t.close s h).2.2 := by
  simp only [Table.close, he]
  split
  · exact .refl _ h
  · exact .call (.closeTable _) trivial

theorem changed_state {α σ : Type} (a : α) (st : σ) (r : Except Error α) :
    (changed a st r).2.2 = st := by
  cases r <;> rfl

theorem Table.call_reaches (t : Table) (he : s.engine = Host.engine) (c : TableCall) (h : Host) :
    h.Reaches (Event.On t.Asks) (t.call c s h).2.2 := by
  cases c with
  | setPath => exact .refl _ h
  | addField | addIndex | editIndex | addSegment =>
    simp only [Table.call, changed_state]
    exact .refl _ h
  | create name m => exact t.create_reaches he name m h
  | openStored name m => exact t.openStored_reaches he name m h

variable {r : Record} {t : Table}

theorem Record.move_once (r : Record) (t : Table) (he : s.engine = Host.engine) (m : CursorMove)
    (h : Host) : h.Once Request.OnRows (r.move t s m h).2.2 := by
  simp only [Record.move, he]
  split
  · exact .none _ h
  · have hcall : h.Once Request.OnRows (Host.engine.moveCursor r.handle r.index m h).2 :=
      .request (q := .moveCursor r.handle r.index m) trivial
    generalize Host.engine.moveCursor r.handle r.index m h = x at hcall ⊢
    obtain ⟨_ | _, _⟩ := x <;> exact hcall

theorem Record.moveOn_once (r : Record) (t : Table) (he : s.engine = Host.engine)
    (m : RowId → CursorMove) (h : Host) : h.Once Request.OnRows (r.moveOn t s m h).2.2 := by
  simp only [Record.moveOn]
  split
  · exact r.move_once t he _ h
  · exact .none _ h

theorem Record.write_once (r : Record) (t : Table) (he : s.engine = Host.engine) (h : Host) :
    h.Once Request.OnRows (r.write t s h).2.2 := by
  simp only [Record.write, he]
  split
  · exact .none _ h
  · have hcall : h.Once Request.OnRows (Host.engine.writeRow r.handle r.target? r.values h).2 :=
      .request (q := .writeRow r.handle r.target? r.values) trivial
    generalize Host.engine.writeRow r.handle r.target? r.values h = x at hcall ⊢
    obtain ⟨_ | _, _⟩ := x <;> exact hcall

theorem Record.delete_once (r : Record) (t : Table) (he : s.engine = Host.engine) (h : Host) :
    h.Once Request.OnRows (r.delete t s h).2.2 := by
  simp only [Record.delete, he]
  split
  · exact .none _ h
  · rename_i id _
    have hcall : h.Once Request.OnRows (Host.engine.deleteRow r.handle id h).2 :=
      .request (q := .deleteRow r.handle id) trivial
    generalize Host.engine.deleteRow r.handle id h = x at hcall ⊢
    obtain ⟨_ | _, _⟩ := x <;> exact hcall

theorem Record.lock_once (r : Record) (t : Table) (he : s.engine = Host.engine) (m : LockMode)
    (h : Host) : h.Once Request.OnRows (r.lock t s m h).2 := by
  simp only [Record.lock, he]
  split
  · exact .none _ h
  · rename_i id _
    exact .request (q := .lockRow r.handle id m) trivial

theorem Record.call_once (r : Record) (t : Table) (he : s.engine = Host.engine) (c : RecordCall)
    (h : Host) : h.Once Request.OnRows (r.call c t s h).2.2 := by
  cases c with
  | first | last => exact r.move_once t he _ h
  | next | prev => exact r.moveOn_once t he _ h
  | find mode =>
    simp only [Record.call, Record.find, Prod.map_snd, id_eq]
    split
    · exact .none _ h
    · exact r.move_once t he _ h
  | write => exact r.write_once t he h
  | delete => exact r.delete_once t he h
  | lock m => exact r.lock_once t he m h
  | get => exact .none _ h
  | clear | setIndex | usePhysicalOrder | set | setText =>
    simp only [Record.call, changed_state]
    exact .none _ h

theorem Record.call_reaches (r : Record) (t : Table) (he : s.engine = Host.engine) (c : RecordCall)
    (h : Host) : h.Reaches (Event.On Request.OnRows) (r.call c t s h).2.2 :=
  (r.call_once t he c h).reaches

/-! What comes of them. -/

namespace Host

theorem Reaches.sane {P : Event → Prop} {h' : Host} (r : h.Reaches P h') (sane : h.Sane) :
    h'.Sane :=
  r.keeps (fun _ e _ sane => sane.next e) sane

theorem Reaches.keeps_calls {P : Request → Prop} {R : Host → Prop} {h' : Host}
    (r : h.Reaches (Event.On P) h') (sane : h.Sane)
    (call : ∀ g q, P q → g.Sane → R g → R (g.perform q)) (start : R h) : R h' := by
  have step (g : Host) (e : Event) (he : Event.On P e) (kept : g.Sane ∧ R g) :
      (g.next e).Sane ∧ R (g.next e) := by
    cases e with
    | call q => exact ⟨kept.1.next _, call g q he kept.1 kept.2⟩
    | device | restart => exact he.elim
  exact (r.keeps (R := fun g => g.Sane ∧ R g) step ⟨sane, start⟩).2

end Host

namespace Workspace

open FiniteMap

variable {w w' : Workspace Host}

/-- All sessions are sessions of the one host. -/
structure Standing (w : Workspace Host) : Prop where
  hosted : ∀ {n s}, w.session? n = some s → s.engine = Host.engine
  sane : w.state.Sane

theorem standing_start (config : EngineConfig) (disk : Disk) : (start config disk).Standing :=
  ⟨nofun, Host.sane_start config disk⟩

theorem table?_eq_some {n : String} {t : Table} {s : Session Host} : w.table? n = some (t, s) ↔
    ∃ owner, get? w.tables n = some (owner, t) ∧ w.session? owner = some s := by
  simp [table?, Option.bind_eq_some_iff]

theorem record?_eq_some {n : String} {r : Record} {t : Table} {s : Session Host} :
    w.record? n = some (r, t, s) ↔
      ∃ table, get? w.records n = some (table, r) ∧ w.table? table = some (t, s) := by
  simp [record?, Option.bind_eq_some_iff]

theorem Standing.change_session (standing : w.Standing) {n m : String} {s s' u : Session Host}
    (found : w.session? n = some s) (he : s'.engine = s.engine)
    (hu : get? (set w.sessions n s') m = some u) : u.engine = Host.engine := by
  rw [get?_set] at hu
  split at hu
  · cases hu
    exact he.trans (standing.hosted found)
  · exact standing.hosted hu

theorem Change.reaches (change : w.Change w') (standing : w.Standing) :
    w.state.Reaches (fun _ => True) w'.state := by
  cases change with
  | session call found =>
    exact (Session.call_reaches (standing.hosted found) call _).mono fun _ _ => trivial
  | sessionDropped found =>
    exact (Session.call_reaches (standing.hosted found) .logout _).mono fun _ _ => trivial
  | sessionAdded | tableAdded | recordAdded | recordDropped => exact .refl _ _
  | @table name owner t s call entry found =>
    exact (t.call_reaches (standing.hosted found) call _).mono fun _ _ => trivial
  | @closed name owner t s entry found | @tableDropped name owner t s entry found =>
    exact (t.close_reaches (standing.hosted found) _).mono fun _ _ => trivial
  | @record name table r t s call entry found =>
    obtain ⟨owner, -, found⟩ := table?_eq_some.1 found
    exact (r.call_reaches t (standing.hosted found) call _).mono fun _ _ => trivial
  | device faults => exact .next (e := .device faults) trivial
  | restarted config => exact .next (e := .restart config) trivial

theorem Change.standing (change : w.Change w') (standing : w.Standing) : w'.Standing := by
  refine ⟨?_, (change.reaches standing).sane standing.sane⟩
  cases change with
  | session call found =>
    intro n u hu
    exact standing.change_session found (Session.call_engine call _ _) hu
  | sessionDropped =>
    intro n u hu
    exact standing.hosted (Server.get?_erase_eq_some.1 hu).2
  | sessionAdded =>
    intro n u hu
    simp only [session?, get?_set] at hu
    split at hu
    · cases hu
      rfl
    · exact standing.hosted hu
  | table | closed | tableDropped | tableAdded | recordAdded | recordDropped | record | device =>
    exact standing.hosted
  | restarted =>
    intro n u hu
    cases hu

theorem run_standing {P : Workspace Host → Prop} (config : EngineConfig) (disk : Disk)
    (as : List Act) (new : P (start config disk))
    (step : ∀ {w w'}, w.Change w' → w.Standing → P w → P w') :
    ((start config disk).run as).Standing ∧ P ((start config disk).run as) := by
  have change {w w' : Workspace Host} (change : w.Change w') (kept : w.Standing ∧ P w) :
      w'.Standing ∧ P w' := ⟨change.standing kept.1, step change kept.1 kept.2⟩
  exact run_keeps (P := fun w => w.Standing ∧ P w) (fun w a => next_keeps change a) as
    ⟨standing_start config disk, new⟩

end Workspace
end Isam
