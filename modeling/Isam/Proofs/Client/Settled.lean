import Isam.Proofs.Client.Setting
import Isam.Proofs.Client.Tables
namespace Isam

open FiniteMap

variable {w w' : Workspace Host} {n o : String} {t u : Table} {s : Session Host} {h h' : Host}
  {b : Binding} {call : TableCall}

namespace Table

structure Settled (t : Table) (h : Host) (id : HandleId) : Prop where
  frozen : ∀ i ∈ t.indexes, i.frozen = true
  stored : ∀ {j}, h.image? id = some j → j.schema.indexes = t.indexes.map (·.toDecl)

theorem Settled.carries (settled : t.Settled h b.handle) (carries : h.Carries h')
    (given : b.handle < h.server.nextId) : t.Settled h' b.handle := by
  refine ⟨settled.frozen, fun {j} hj => ?_⟩
  obtain ⟨i, hi, hschema⟩ := carries.schema given hj
  rw [hschema, settled.stored hi]

theorem editIndex_frozen (frozen : ∀ i ∈ t.indexes, i.frozen = true) (edit : IndexEdit) :
    ∃ e, t.editIndex n edit.apply = .error e := by
  cases hi : t.indexNamed n with
  | error e => exact ⟨e, bind_eq_error.2 (.inl hi)⟩
  | ok i =>
    have hmem := List.mem_of_find?_eq_some (indexNamed_eq_ok hi)
    exact ⟨_, bind_eq_error.2 (.inr ⟨i, hi, bind_eq_error.2
      (.inl (edit.apply_frozen (frozen i hmem)))⟩)⟩

theorem call_of_live (live : t.live? s = some b) (frozen : ∀ i ∈ t.indexes, i.frozen = true)
    (call : TableCall) (h : Host) : (t.call call s h).2.1.indexes = t.indexes ∧
      (t.call call s h).2.1.binding = t.binding ∧ (t.call call s h).2.2 = h := by
  have bound (attempt : String) : t.checkUnbound s attempt = .error (.tableIsOpen attempt) :=
    if_pos (by rw [isOpen, live]; rfl)
  have refused {r : Except Error Table} (hr : ∃ e, r = .error e) :
      (changed t h r).2.1.indexes = t.indexes ∧ (changed t h r).2.1.binding = t.binding ∧
        (changed t h r).2.2 = h := by
    obtain ⟨e, rfl⟩ := hr
    exact ⟨rfl, rfl, rfl⟩
  cases call with
  | setPath => exact ⟨rfl, rfl, rfl⟩
  | addField name type length p =>
    have hadd : t.addField s name type length p = .error _ := bind_eq_error.2 (.inl (bound _))
    exact refused ⟨_, congrArg (·.map (·.2)) hadd⟩
  | addIndex name kind =>
    have hadd : t.addIndex s name kind = .error _ := bind_eq_error.2 (.inl (bound _))
    exact refused ⟨_, congrArg (·.map (·.2)) hadd⟩
  | editIndex name edit => exact refused (editIndex_frozen frozen edit)
  | addSegment index field mode =>
    refine refused ?_
    cases hf : t.fieldNamed field with
    | error e => exact ⟨e, bind_eq_error.2 (.inl hf)⟩
    | ok f =>
      obtain ⟨e, hedit⟩ := editIndex_frozen frozen (.addSegment f mode)
      exact ⟨e, bind_eq_error.2 (.inr ⟨f, hf, hedit⟩)⟩
  | create name mode =>
    have hc : t.checkCreate s name = .error _ := bind_eq_error.2 (.inl (bound _))
    simp only [call, create, hc, and_self]
  | openStored name mode =>
    have hc : t.checkOpen s name = .error _ := bind_eq_error.2 (.inl (bound _))
    simp only [call, openStored, hc, and_self]

theorem create_settled {c : ConnectionId} {id : HandleId} {a : TableAddress} {mode : CreateMode}
    (made : h.createTable c a t.schema mode = (.ok id, h')) (name : Option String)
    (binding : Option Binding) :
    Settled { t with indexes := t.indexes.map (·.freeze), name, binding } h' id := by
  constructor
  · intro i hi
    obtain ⟨i, -, rfl⟩ := List.mem_map.1 hi
    rfl
  · intro j hj
    obtain rfl := Option.some.inj ((Host.createTable_image made).symm.trans hj)
    show t.indexes.map (·.toDecl) = (t.indexes.map (·.freeze)).map (·.toDecl)
    rw [List.map_map]
    rfl

theorem open_settled {schema : Schema} {id : HandleId} {loaded : Table}
    (read : h.server.readSchema id = .ok schema) (hl : t.load schema = .ok loaded)
    (name : Option String) (binding : Option Binding) :
    Settled { loaded with name, binding } h id := by
  obtain ⟨hdecls, hall⟩ := load_indexes hl
  refine ⟨fun i hi => (hall i hi).2, fun {j} hj => ?_⟩
  obtain ⟨i, hi, rfl⟩ := Host.readSchema_eq_ok read
  obtain rfl := Option.some.inj (hi.symm.trans hj)
  exact hdecls.symm

theorem call_settled (he : s.engine = Host.engine) (h : Host)
    (old : ∀ a, t.live? s = some a → t.Settled h a.handle)
    (live : (t.call call s h).2.1.live? s = some b) :
    (t.call call s h).2.1.Settled (t.call call s h).2.2 b.handle := by
  cases ht : t.live? s with
  | some a =>
    have settled := old a ht
    obtain ⟨hindexes, hbinding, hstate⟩ := call_of_live ht settled.frozen call h
    rw [live?, hbinding] at live
    cases ht.symm.trans live
    rw [hstate]
    refine ⟨hindexes ▸ settled.frozen, fun {j} hj => ?_⟩
    rw [hindexes]
    exact settled.stored hj
  | none =>
    have yields := t.yields he call h
    generalize (t.call call s h).2.1 = u, (t.call call s h).2.2 = h' at yields live ⊢
    have dead (same : u.binding = t.binding) : u.Settled h' b.handle := by
      rw [live?, same] at live
      cases ht.symm.trans live
    cases yields with
    | failed | path => exact dead rfl
    | field added =>
      obtain ⟨-, -, -, rfl⟩ := addField_eq_ok added
      exact dead rfl
    | index added =>
      obtain ⟨-, rfl⟩ := addIndex_eq_ok added
      exact dead rfl
    | edited edited | segment _ edited =>
      obtain ⟨i, j, -, -, rfl⟩ := editIndex_eq_ok edited
      exact dead rfl
    | created made =>
      cases (live?_eq_some.1 live).1
      exact create_settled made _ _
    | opened _ _ read load =>
      cases (live?_eq_some.1 live).1
      exact open_settled read load _ _

end Table

namespace Workspace

def Settled (w : Workspace Host) : Prop :=
  ∀ n o t b, get? w.tables n = some (o, t) → t.binding = some b →
    w.connection? o = some b.connection → t.Settled w.state b.handle

theorem Settled.entry (settled : w.Settled) (matched : w.Matched) (continues : w.Continues w')
    (entry : get? w.tables n = some (o, t)) (hb : t.binding = some b)
    (hc : w'.connection? o = some b.connection) : t.Settled w'.state b.handle := by
  obtain ⟨connection, handle⟩ := matched.buffered.given entry hb
  have before := settled n o t b entry hb (continues.connections hc connection)
  exact before.carries continues.carries handle

theorem Change.settled (change : w.Change w') (matched : w.Matched) (settled : w.Settled) :
    w'.Settled := by
  intro n o u b entry' hb hc
  rcases change.continues matched.toStanding with ⟨config, rfl⟩ | continues
  · cases entry'
  have old {t : Table} (entry : get? w.tables n = some (o, t)) (hb : t.binding = some b) :
      t.Settled w'.state b.handle := settled.entry matched continues entry hb hc
  cases change with
  | session | sessionDropped | sessionAdded | recordAdded | recordDropped | record | device =>
    exact old entry' hb
  | table call entry found =>
    simp only [get?_set] at entry'
    split at entry'
    · rename_i heq
      cases entry'
      obtain ⟨s', hs', hc⟩ := connection?_eq_some.1 hc
      cases found.symm.trans hs'
      refine Table.call_settled (matched.hosted found) w.state (fun a live => ?_)
        (Table.live?_eq_some.2 ⟨hb, hc⟩)
      obtain ⟨ha, hconnection⟩ := Table.live?_eq_some.1 live
      exact settled n o _ a (heq ▸ entry) ha (connection?_eq_some.2 ⟨_, found, hconnection⟩)
    · exact old entry' hb
  | closed entry found =>
    simp only [get?_set, Table.close_eq _ (matched.hosted found)] at entry'
    split at entry'
    · cases entry'
      cases hb
    · exact old entry' hb
  | tableDropped => exact old (Server.get?_erase_eq_some.1 entry').2 hb
  | tableAdded =>
    simp only [get?_set] at entry'
    split at entry'
    · cases entry'
      cases hb
    · exact old entry' hb
  | restarted => cases entry'

theorem Settled.step (settled : w.Settled) (matched : w.Matched) (y : Step) :
    (w.step y).Settled := by
  cases y with
  | act a =>
    refine (next_keeps (P := fun w => w.Matched ∧ w.Settled) ?_ a ⟨matched, settled⟩).2
    rintro w w' change ⟨matched, settled⟩
    exact ⟨change.matched matched, change.settled matched settled⟩
  | call q =>
    have carries := Host.carries_call matched.sane.registered q
    intro n o t b entry hb hc
    exact settled.entry matched ⟨carries, fun hc _ => hc⟩ entry hb hc

theorem settled_steps (config : EngineConfig) (disk : Disk) (xs : List Step) :
    ((start config disk).steps xs).Settled := by
  have each (w : Workspace Host) (y : Step) (_ : True) (kept : w.Matched ∧ w.Settled) :
      (w.step y).Matched ∧ (w.step y).Settled :=
    ⟨kept.1.step y, kept.2.step kept.1 y⟩
  have start : (start config disk).Settled := nofun
  exact (steps_keep each (fun _ _ => trivial) ⟨matched_steps config disk [], start⟩).2

theorem Settled.bound (settled : w.Settled) (found : w.table? n = some (t, s)) {r : Record}
    (bound : r.checkBound t s = .ok ()) : t.Settled w.state r.handle := by
  obtain ⟨b, live, heq⟩ := Record.checkBound_eq_ok.1 bound
  obtain ⟨hb, hc⟩ := Table.live?_eq_some.1 live
  obtain ⟨o, entry, hs⟩ := table?_eq_some.1 found
  exact heq ▸ settled n o t b entry hb (connection?_eq_some.2 ⟨s, hs, hc⟩)

end Workspace
end Isam
