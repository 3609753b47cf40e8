import Isam.Proofs.Client.Loading
namespace Isam

open FiniteMap

variable {w w' : Workspace Host} {n m o : String} {t u v : Table} {s : Session Host} {h : Host}
  {i j x : Index} {edit : IndexEdit} {call : TableCall} {k : Nat}

namespace Workspace

theorem dropSession_tables (dropped : w.dropSession m = some w') : w'.tables = w.tables := by
  unfold dropSession at dropped
  split at dropped
  · cases dropped
  · split at dropped
    · rename_i hout
      obtain ⟨s, -, -, rfl⟩ := onSession_eq_some hout
      cases dropped
      rfl
    · cases dropped
      rfl

theorem dropTable_tables (dropped : w.dropTable m = some w') : w'.nextTable = w.nextTable ∧
    (get? w'.tables n = get? w.tables n ∨ m = n ∧ get? w'.tables n = none) := by
  unfold dropTable at dropped
  split at dropped
  · cases dropped
  · split at dropped
    · rename_i hout
      obtain ⟨o, t, s, -, -, -, rfl⟩ := onTable_eq_some hout
      cases dropped
      refine ⟨rfl, ?_⟩
      simp only [erase_set, get?_erase]
      split
      · exact .inr ⟨‹_›, rfl⟩
      · exact .inl rfl
    · cases dropped
      exact ⟨rfl, .inl rfl⟩

inductive Becomes (w : Workspace Host) (n : String) : Act → Option (String × Table) → Prop
  | same (a : Act) : Becomes w n a (get? w.tables n)
  | called {o : String} {t : Table} {s : Session Host} {call : TableCall}
    (entry : get? w.tables n = some (o, t)) (found : w.session? o = some s)
    (free : w.hasRecords n = false) :
    Becomes w n (.table n call) (some (o, (t.call call s w.state).2.1))
  | closed {o : String} {t : Table} {s : Session Host} (entry : get? w.tables n = some (o, t))
    (found : w.session? o = some s) :
    Becomes w n (.close n) (some (o, (t.close s w.state).2.1))
  | added (o : String) : Becomes w n (.newTable n o) (some (o, { id := w.nextTable }))
  | dropped : Becomes w n (.dropTable n) none
  | restarted (config : EngineConfig) : Becomes w n (.restart config) none

theorem next_becomes (w : Workspace Host) (n : String) (a : Act) :
    w.Becomes n a (get? (w.next a).tables n) := by
  unfold next
  split
  · rename_i w' attempted
    cases a with
    | newSession m config =>
      obtain ⟨w', added, ⟨⟩⟩ := Option.map_eq_some_iff.1 attempted
      obtain ⟨w₁, dropped, ⟨⟩⟩ := Option.bind_eq_some_iff.1 added
      simp only [dropSession_tables dropped]
      exact .same _
    | dropSession m =>
      obtain ⟨w', dropped, ⟨⟩⟩ := Option.map_eq_some_iff.1 attempted
      simp only [dropSession_tables dropped]
      exact .same _
    | session m call =>
      simp only [attempt] at attempted
      obtain ⟨s, -, -, rfl⟩ := onSession_eq_some attempted
      exact .same _
    | newTable m o =>
      obtain ⟨w', added, ⟨⟩⟩ := Option.map_eq_some_iff.1 attempted
      obtain ⟨⟨⟩, -, added⟩ := Option.bind_eq_some_iff.1 added
      obtain ⟨w₁, dropped, ⟨⟩⟩ := Option.bind_eq_some_iff.1 added
      obtain ⟨next, tables⟩ := dropTable_tables (n := n) dropped
      simp only [get?_set, next]
      split
      · rename_i heq
        exact heq ▸ .added o
      · rename_i hne
        rw [tables.resolve_right fun gone => hne gone.1]
        exact .same _
    | dropTable m =>
      obtain ⟨w', dropped, ⟨⟩⟩ := Option.map_eq_some_iff.1 attempted
      rcases (dropTable_tables (n := n) dropped).2 with tables | ⟨rfl, tables⟩ <;> rw [tables]
      · exact .same _
      · exact .dropped
    | table m call =>
      obtain ⟨free, attempted⟩ := onFreeTable_eq_some attempted
      obtain ⟨o, t, s, entry, found, -, rfl⟩ := onTable_eq_some attempted
      simp only [get?_set]
      split
      · rename_i heq
        exact heq ▸ .called entry found free
      · exact .same _
    | close m =>
      simp only [attempt] at attempted
      obtain ⟨o, t, s, entry, found, -, rfl⟩ := onTable_eq_some attempted
      simp only [get?_set]
      split
      · rename_i heq
        exact heq ▸ .closed entry found
      · exact .same _
    | newRecord m table =>
      obtain ⟨added, hadded, hw⟩ := Option.map_eq_some_iff.1 attempted
      obtain ⟨⟨t, s⟩, -, hadded⟩ := Option.bind_eq_some_iff.1 hadded
      cases hadded
      cases hmade : Record.ofTable t s with
      | error e =>
        simp only [hmade] at hw
        cases hw
        exact .same _
      | ok r =>
        simp only [hmade] at hw
        cases hw
        exact .same _
    | dropRecord m =>
      cases attempted
      exact .same _
    | record m call =>
      simp only [attempt] at attempted
      obtain ⟨table, r, t, s, -, -, -, rfl⟩ := onRecord_eq_some attempted
      exact .same _
    | device faults =>
      cases attempted
      exact .same _
    | restart config =>
      cases attempted
      exact .restarted config
  · exact .same a

theorem tables_step {P : Table → Prop} {y : Step} (standing : w.Standing)
    (old : ∀ n o t, get? w.tables n = some (o, t) → P t) (new : ∀ id, P { id })
    (close : ∀ t, P t → P { t with binding := none })
    (calls : ∀ n o t s call, y = .act (.table n call) → get? w.tables n = some (o, t) →
      s.engine = Host.engine → P t → P (t.call call s w.state).2.1) :
    ∀ n o t, get? (w.step y).tables n = some (o, t) → P t := by
  intro n o u entry'
  cases y with
  | call q => exact old n o u entry'
  | act a =>
    have becomes := w.next_becomes n a
    rw [step] at entry'
    generalize get? (w.next a).tables n = e at becomes entry'
    cases becomes with
    | same => exact old n o u entry'
    | called entry found =>
      cases entry'
      exact calls n _ _ _ _ rfl entry (standing.hosted found) (old n _ _ entry)
    | @closed o t s entry found =>
      cases entry'
      rw [t.close_eq (standing.hosted found)]
      exact close t (old n _ t entry)
    | added =>
      cases entry'
      exact new _
    | dropped | restarted => cases entry'

end Workspace

theorem IndexEdit.apply_frozen (frozen : i.frozen = true) (edit : IndexEdit) :
    edit.apply i = .error (.frozenIndex i.name) := by
  have checked : i.checkMutable = .error (.frozenIndex i.name) := if_pos frozen
  cases edit <;> exact bind_eq_error.2 (.inl checked)

namespace Table

theorem getElem?_of_replaced {is : List Index} (found : is.find? (·.name == j.name) = some i)
    (hx : is[k]? = some x) (other : x ≠ i) : (replaceIndex j is)[k]? = some x := by
  induction is generalizing k with
  | nil => cases found
  | cons y is ih =>
    rw [List.find?_cons] at found
    rw [replaceIndex]
    cases hy : y.name == j.name with
    | true =>
      rw [hy] at found
      cases found
      cases k with
      | zero =>
        cases hx
        exact absurd rfl other
      | succ k => exact hx
    | false =>
      rw [hy] at found
      cases k with
      | zero => exact hx
      | succ k => exact ih found hx

structure Extends (t u : Table) : Prop where
  id : u.id = t.id
  fields : t.fields <+: u.fields
  indexes : ∀ {k : Nat} {i : Index}, t.indexes[k]? = some i → i.frozen = true →
    u.indexes[k]? = some i

theorem Extends.refl (t : Table) : t.Extends t := ⟨rfl, List.prefix_rfl, fun hi _ => hi⟩

theorem Extends.trans (first : t.Extends u) (second : u.Extends v) : t.Extends v :=
  ⟨second.id.trans first.id, first.fields.trans second.fields,
    fun hi frozen => second.indexes (first.indexes hi frozen) frozen⟩

theorem Extends.stands {f : Field} (retained : t.Extends u) (stands : f.Stands t) : f.Stands u := by
  obtain ⟨g, hg, same⟩ := stands
  obtain ⟨more, hmore⟩ := retained.fields
  refine ⟨g, ?_, same⟩
  rw [← hmore, List.getElem?_append_left (List.getElem?_eq_some_iff.1 hg).1, hg]

theorem editIndex_extends (edited : t.editIndex m edit.apply = .ok u) : t.Extends u := by
  obtain ⟨i, j, hi, hj, rfl⟩ := editIndex_eq_ok edited
  refine ⟨rfl, List.prefix_rfl, fun hx frozen => ?_⟩
  have found := indexNamed_eq_ok hi
  have hname : i.name = m := by simpa using List.find?_some found
  rw [← hname, ← (IndexEdit.apply_eq_ok hj).1] at found
  refine getElem?_of_replaced found hx ?_
  rintro rfl
  rw [IndexEdit.apply_frozen frozen] at hj
  cases hj

theorem freeze_extends (name : Option String) (binding : Option Binding) :
    t.Extends { t with indexes := t.indexes.map (·.freeze), name, binding } := by
  refine ⟨rfl, List.prefix_rfl, fun {k i} hi frozen => ?_⟩
  rw [List.getElem?_map, hi, Option.map_some, Index.freeze, ← frozen]

theorem close_extends (he : s.engine = Host.engine) (h : Host) :
    t.Extends (t.close s h).2.1 := by
  rw [t.close_eq he]
  exact ⟨rfl, List.prefix_rfl, fun hi _ => hi⟩

theorem Yields.extends {h' : Host} (yields : t.Yields s h call u h')
    (kept : ∀ name mode, call = .openStored name mode → (t.call call s h).1 ≠ .ok ()) :
    t.Extends u := by
  cases yields with
  | failed => exact .refl t
  | path => exact ⟨rfl, List.prefix_rfl, fun hi _ => hi⟩
  | field added =>
    obtain ⟨-, -, -, rfl⟩ := addField_eq_ok added
    exact ⟨rfl, List.prefix_append _ _, fun hi _ => hi⟩
  | index added =>
    obtain ⟨-, rfl⟩ := addIndex_eq_ok added
    refine ⟨rfl, List.prefix_rfl, fun hi _ => ?_⟩
    exact (List.getElem?_append_left (List.getElem?_eq_some_iff.1 hi).1).trans hi
  | edited edited | segment _ edited => exact editIndex_extends edited
  | created => exact freeze_extends _ _
  | @opened name mode c id h' schema loaded opened =>
    exact absurd (congrArg (·.1) opened) (kept name mode rfl)

end Table

namespace Workspace

def Keeps (n : String) (w : Workspace Host) : Step → Prop
  | .act (.newTable m _) | .act (.dropTable m) => m ≠ n
  | .act (.restart _) => False
  | .act (.table m (.openStored name mode)) =>
    m = n → ∀ v, w.attempt (.table m (.openStored name mode)) ≠ some (.ok (), v)
  | _ => True

theorem attempt_table (entry : get? w.tables n = some (o, t)) (found : w.session? o = some s)
    (free : w.hasRecords n = false) (call : TableCall) :
    ∃ v, w.attempt (.table n call) = some ((t.call call s w.state).1, v) := by
  simp [attempt, onFreeTable, free, onTable, entry, found]

theorem Keeps.extends {y : Step} (keeps : w.Keeps n y) (standing : w.Standing)
    (entry : get? w.tables n = some (o, t)) :
    ∃ u, get? (w.step y).tables n = some (o, u) ∧ t.Extends u := by
  cases y with
  | call q => exact ⟨t, entry, .refl t⟩
  | act a =>
    have becomes := w.next_becomes n a
    rw [step]
    generalize get? (w.next a).tables n = e at becomes
    cases becomes with
    | same => exact ⟨t, entry, .refl t⟩
    | @called o' t' s call entry' found free =>
      cases entry.symm.trans entry'
      refine ⟨_, rfl, (t.yields (standing.hosted found) _ w.state).extends ?_⟩
      rintro name mode rfl hok
      obtain ⟨v, attempted⟩ := attempt_table entry found free (.openStored name mode)
      rw [hok] at attempted
      exact keeps rfl v attempted
    | closed entry' found =>
      cases entry.symm.trans entry'
      exact ⟨_, rfl, Table.close_extends (standing.hosted found) w.state⟩
    | added | dropped => exact absurd rfl keeps
    | restarted => exact keeps.elim

theorem extends_steps (standing : w.Standing) {ys : List Step} (keeps : Along step (Keeps n) w ys)
    (entry : get? w.tables n = some (o, t)) :
    ∃ u, get? (w.steps ys).tables n = some (o, u) ∧ t.Extends u := by
  have each (v : Workspace Host) (y : Step) (keeps : v.Keeps n y)
      (kept : v.Standing ∧ ∃ u, get? v.tables n = some (o, u) ∧ t.Extends u) :
      (v.step y).Standing ∧ ∃ u, get? (v.step y).tables n = some (o, u) ∧ t.Extends u := by
    obtain ⟨standing, u, entry, first⟩ := kept
    obtain ⟨u', entry', second⟩ := keeps.extends standing entry
    exact ⟨standing.step y, u', entry', first.trans second⟩
  exact (keeps.keeps each ⟨standing, t, entry, .refl t⟩).2

end Workspace
end Isam
