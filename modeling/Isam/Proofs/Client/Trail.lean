import Isam.Proofs.Client.Inert
import Isam.Proofs.Client.Setting
namespace Isam

open FiniteMap

variable {h h' : Host} {s : Session Host} {t : Table} {r r' : Record} {tr : Trail} {k : RowId}

def Host.row? (h : Host) (id : HandleId) (k : RowId) : Option Row :=
  (h.image? id).bind (·.rows.get? k)

theorem Image.moveTo_end {i : Image} {index : Option Nat} {m : CursorMove} {k? : Option RowId}
    (hm : m = .first ∨ m = .last) (hk : i.moveTo index m = .ok k?) :
    ∃ ids, i.orderedRows index = .ok ids ∧ (ids.head? = k? ∨ ids.getLast? = k?) := by
  rcases hm with rfl | rfl
  · obtain ⟨ids, hids, hhead⟩ := bind_eq_ok.1 hk
    exact ⟨ids, hids, .inl (Except.ok.inj hhead)⟩
  · obtain ⟨ids, hids, hlast⟩ := bind_eq_ok.1 hk
    exact ⟨ids, hids, .inr (Except.ok.inj hlast)⟩

theorem Host.moveCursor_end_none {id : HandleId} {index : Option Nat} {m : CursorMove}
    (hm : m = .first ∨ m = .last) (hnone : h.server.moveCursor id index m = .ok none) :
    ∃ i, h.image? id = some i ∧ i.rows.entries = [] := by
  obtain ⟨⟨x, f⟩, ho, hnone⟩ := bind_eq_ok.1 hnone
  obtain ⟨k?, hk, hstored⟩ := bind_eq_ok.1 hnone
  obtain ⟨ids, hids, hends⟩ := Image.moveTo_end hm hk
  refine ⟨f.image, image?_eq_some.2 ⟨x, f, ho, rfl⟩, ?_⟩
  cases k? with
  | none =>
    rw [← Image.orderedRows_eq_nil hids]
    exact hends.elim List.head?_eq_none_iff.1 List.getLast?_eq_none_iff.1
  | some k =>
    have hmem : k ∈ ids := hends.elim List.mem_of_head? List.mem_of_getLast?
    obtain ⟨row, hrow⟩ := Rows.mem_ids_iff.1 ((Image.orderedRows_perm hids).mem_iff.1 hmem)
    have hstored := Except.ok.inj hstored
    rw [Option.bind_some, Server.stored?, hrow] at hstored
    cases hstored

/-- What the answers of a record tell of its buffer: the row that it stands for, if any, and the
values. -/
structure Trail where
  row : Option RowId
  values : Row

namespace Trail

def moved (tr : Trail) (row? : RowId → Option Row) : Option RowId → Trail
  | some k => ⟨some k, (row? k).getD tr.values⟩
  | none => { tr with row := none }

def put (tr : Trail) : Except Error (Field × Value) → Trail
  | .ok (f, v) => { tr with values := tr.values.set f.number (f.type.coerce v) }
  | .error _ => tr

def told (tr : Trail) (t : Table) (s : Session Host) (row? : RowId → Option Row)
    (answer : Option RowId) : RecordCall → Trail
  | .first | .last | .next | .prev | .find _ => tr.moved row? answer
  | .write => { tr with row := answer }
  | .clear => ⟨none, t.initialValues⟩
  | .delete | .setIndex _ | .usePhysicalOrder => { tr with row := none }
  | .lock _ | .get _ => tr
  | .set f v => tr.put do return (← t.select f, v)
  | .setText f text => tr.put do
    let field ← t.select f
    return (field, ← field.ofText s.dateFormat text)

def after (tr : Trail) (told : Option RowId → Trail) : Except Error (Option RowId) → Trail
  | .ok answer => told answer
  | .error _ => tr

theorem after_self (tr : Trail) (answer : Except Error (Option RowId)) :
    tr.after (fun _ => tr) answer = tr := by
  cases answer <;> rfl

end Trail

namespace Record

def answer (r : Record) (t : Table) (s : Session Host) (h : Host) :
    RecordCall → Except Error (Option RowId)
  | .first => (r.first t s h).1
  | .last => (r.last t s h).1
  | .next => (r.next t s h).1
  | .prev => (r.prev t s h).1
  | .find mode => (r.find t s mode h).1
  | .write => (r.write t s h).1.map some
  | c => (r.call c t s h).1.map fun _ => none

structure Along (r : Record) (tr : Trail) : Prop where
  target : r.target? = tr.row
  values : r.values = tr.values

inductive Moved (r : Record) (h : Host) : Except Error (Option RowId) × Record × Host → Prop
  | refused (e : Error) : Moved r h (.error e, r, h)
  | still (off : r.cursor.row? = none) : Moved r h (.ok none, r, h)
  | onto (a? : Option (RowId × Row)) (stored : ∀ a ∈ a?, h.row? r.handle a.1 = some a.2) :
    Moved r h (.ok (a?.map (·.1)), r.onto a?, h)

theorem move_moved (r : Record) (t : Table) (he : s.engine = Host.engine) (m : CursorMove)
    (h : Host) : r.Moved h (r.move t s m h) := by
  rcases r.move_cases t he m h with ⟨e, hmove⟩ | ⟨row?, -, hrow, hmove⟩ <;> rw [hmove]
  · exact .refused e
  · cases row? with
    | none => exact .onto none nofun
    | some row =>
      obtain ⟨i, hi, hstored⟩ := Host.moveCursor_eq_ok hrow
      refine .onto (some (row.id, row.values)) ?_
      rintro a ⟨⟩
      rw [Host.row?, hi]
      exact hstored

theorem moveOn_moved (r : Record) (t : Table) (he : s.engine = Host.engine)
    (m : RowId → CursorMove) (h : Host) : r.Moved h (r.moveOn t s m h) := by
  unfold moveOn
  split
  · exact r.move_moved t he _ h
  · rename_i hoff
    cases r.checkBound t s with
    | error e => exact .refused e
    | ok u =>
      refine .still ?_
      cases hc : r.cursor with
      | positioned id => exact absurd hc (hoff id)
      | unpositioned | beyond => rfl

theorem find_moved (r : Record) (t : Table) (he : s.engine = Host.engine) (mode : FindMode)
    (h : Host) : r.Moved h (r.find t s mode h) := by
  unfold find
  split
  · exact .refused _
  · exact r.move_moved t he _ h

theorem Moved.along {p : Except Error (Option RowId) × Record × Host} (moved : r.Moved h p)
    (along : r.Along tr) : p.2.1.Along (tr.after (tr.moved (h.row? r.handle)) p.1) := by
  cases moved with
  | refused e => exact along
  | still off =>
    refine ⟨?_, along.values⟩
    rw [target?, off, ite_self]
    rfl
  | onto a? stored =>
    cases a? with
    | none => exact ⟨ite_self _, along.values⟩
    | some a =>
      have hrow := stored a rfl
      refine ⟨rfl, ?_⟩
      show a.2 = (h.row? r.handle a.1).getD tr.values
      rw [hrow, Option.getD_some]

theorem Moved.of_error {p : Except Error (Option RowId) × Record × Host} (moved : r.Moved h p)
    {e : Error} (he : p.1 = .error e) : p.2.1 = r := by
  cases moved with
  | refused | still => rfl
  | onto => cases he

theorem write_cases (r : Record) (t : Table) (he : s.engine = Host.engine) (h : Host) :
    (∃ e h', r.write t s h = (.error e, r, h')) ∨
    ∃ k h', h.writeRow r.handle r.target? r.values = (.ok k, h') ∧
      r.write t s h = (.ok k, { r with cursor := .positioned k, pendingInsert := false }, h') := by
  have hcall : Host.engine.writeRow r.handle r.target? r.values h =
      h.writeRow r.handle r.target? r.values := rfl
  simp only [write, he, hcall]
  split
  · exact .inl ⟨_, _, rfl⟩
  · split
    · exact .inl ⟨_, _, rfl⟩
    · rename_i hw
      exact .inr ⟨_, _, hw, rfl⟩

theorem delete_cases (r : Record) (t : Table) (s : Session Host) (h : Host) :
    (∃ e h', r.delete t s h = (.error e, r, h')) ∨ ∃ h', r.delete t s h =
      (.ok (), { r with cursor := .unpositioned, pendingInsert := true }, h') := by
  unfold delete
  split
  · exact .inl ⟨_, _, rfl⟩
  · split
    · exact .inl ⟨_, _, rfl⟩
    · exact .inr ⟨_, rfl⟩

theorem call_of_error (r : Record) (t : Table) (he : s.engine = Host.engine) (c : RecordCall)
    {e : Error} (hc : (r.call c t s h).1 = .error e) : (r.call c t s h).2.1 = r := by
  have moved {p : Except Error (Option RowId) × Record × Host} (moved : r.Moved h p)
      (hp : p.1.map (fun _ => ()) = .error e) : p.2.1 = r := by
    cases hanswer : p.1 with
    | error e => exact moved.of_error hanswer
    | ok a =>
      rw [hanswer] at hp
      cases hp
  have changed {result : Except Error Record} (hresult : (changed r h result).1 = .error e) :
      (changed r h result).2.1 = r := by
    cases result with
    | error e => rfl
    | ok r' => cases hresult
  cases c with
  | first | last => exact moved (r.move_moved t he _ h) hc
  | next | prev => exact moved (r.moveOn_moved t he _ h) hc
  | find mode => exact moved (r.find_moved t he mode h) hc
  | write =>
    simp only [call] at hc ⊢
    rcases r.write_cases t he h with ⟨e, h', hw⟩ | ⟨k, h', -, hw⟩ <;> rw [hw] at hc ⊢
    · rfl
    · cases hc
  | delete =>
    simp only [call] at hc ⊢
    rcases r.delete_cases t s h with ⟨e, h', hd⟩ | ⟨h', hd⟩ <;> rw [hd] at hc ⊢
    cases hc
  | lock | get => rfl
  | clear | setIndex | usePhysicalOrder | set | setText => exact changed hc

theorem set_along {selector : Selector} {f : Field} {v : Value} (along : r.Along tr)
    (selected : t.select selector = .ok f) (hset : r.set t s selector v = .ok r') :
    r'.Along (tr.put (.ok (f, v))) := by
  obtain ⟨⟨⟩, bound, -⟩ := bind_eq_ok.1 hset
  obtain ⟨-, -, rfl⟩ := (set_eq_ok_iff bound selected).1 hset
  refine ⟨along.target, ?_⟩
  show r.values.set f.number _ = tr.values.set f.number _
  rw [along.values]

theorem changed_along {result : Except Error Record} {told : Option RowId → Trail}
    (along : r.Along tr) (made : ∀ r', result = .ok r' → r'.Along (told none)) :
    (changed r h result).2.1.Along
      (tr.after told ((changed r h result).1.map fun _ => none)) := by
  cases result with
  | error e => exact along
  | ok r' => exact made r' rfl

theorem call_along (he : s.engine = Host.engine) (along : r.Along tr) (c : RecordCall) :
    (r.call c t s h).2.1.Along
      (tr.after (fun answer => tr.told t s (h.row? r.handle) answer c) (r.answer t s h c)) := by
  cases c with
  | first | last => exact (r.move_moved t he _ h).along along
  | next | prev => exact (r.moveOn_moved t he _ h).along along
  | find mode => exact (r.find_moved t he mode h).along along
  | write =>
    simp only [call, answer]
    rcases r.write_cases t he h with ⟨e, h', hw⟩ | ⟨k, h', -, hw⟩ <;> rw [hw]
    · exact along
    · exact ⟨rfl, along.values⟩
  | delete =>
    simp only [call, answer]
    rcases r.delete_cases t s h with ⟨e, h', hd⟩ | ⟨h', hd⟩ <;> rw [hd]
    · exact along
    · exact ⟨rfl, along.values⟩
  | lock | get =>
    simp only [answer, Trail.told, Trail.after_self]
    exact along
  | clear =>
    refine changed_along along fun r' hr => ?_
    obtain ⟨⟨⟩, -, ⟨⟩⟩ := bind_eq_ok.1 hr
    exact ⟨rfl, rfl⟩
  | setIndex i =>
    refine changed_along along fun r' hr => ?_
    obtain ⟨⟨⟩, -, hr⟩ := bind_eq_ok.1 hr
    obtain ⟨n, -, ⟨⟩⟩ := bind_eq_ok.1 hr
    exact ⟨ite_self _, along.values⟩
  | usePhysicalOrder =>
    refine changed_along along fun r' hr => ?_
    obtain ⟨⟨⟩, -, ⟨⟩⟩ := bind_eq_ok.1 hr
    exact ⟨ite_self _, along.values⟩
  | set selector v =>
    refine changed_along along fun r' hr => ?_
    obtain ⟨⟨⟩, -, hr'⟩ := bind_eq_ok.1 hr
    obtain ⟨f, selected, -⟩ := bind_eq_ok.1 hr'
    rw [Trail.told, selected]
    exact set_along along selected hr
  | setText selector text =>
    refine changed_along along fun r' hr => ?_
    obtain ⟨f, selected, hr⟩ := bind_eq_ok.1 hr
    obtain ⟨v, hv, hr⟩ := bind_eq_ok.1 hr
    have hput : (do
        let field ← t.select selector
        return (field, ← field.ofText s.dateFormat text)) = .ok (f, v) :=
      bind_eq_ok.2 ⟨f, selected, bind_eq_ok.2 ⟨v, hv, rfl⟩⟩
    rw [Trail.told, hput]
    exact set_along along selected hr

/-- What is left of a record that is moved to an end of its table, where an empty table counts as a
failure. -/
def KeptOrBeyond (r : Record) (h : Host) (p : Except Error (Option RowId) × Record × Host) : Prop :=
  ∀ e, orEmpty p.1 = .error e → p.2.1 = r ∨
    e = .emptyTable ∧ p.2.1 = { r with cursor := .beyond } ∧
      ∃ i, h.image? r.handle = some i ∧ i.rows.entries = []

theorem move_keptOrBeyond (r : Record) (t : Table) (he : s.engine = Host.engine) {m : CursorMove}
    (hm : m = .first ∨ m = .last) (h : Host) : r.KeptOrBeyond h (r.move t s m h) := by
  intro e
  rcases r.move_cases t he m h with ⟨e, hmove⟩ | ⟨row?, -, hrow, hmove⟩ <;> rw [hmove]
  · exact fun _ => .inl rfl
  · cases row? with
    | some row => exact nofun
    | none =>
      intro hempty
      cases hempty
      exact .inr ⟨rfl, rfl, Host.moveCursor_end_none hm hrow⟩

end Record

structure Record.Wrote (r : Record) (row : Option RowId) (k : RowId) (r' : Record) (i j : Image) :
    Prop where
  target : row = some k ∧ i.rows.contains k = true ∨ row = none ∧ k = i.nextRow
  updates_iff : i.Made → (i.rows.contains k = true ↔ row = some k)
  stored : j.rows.get? k = some r.values
  others : ∀ k', k' ≠ k → j.rows.get? k' = i.rows.get? k'
  record : r' = { r with cursor := .positioned k, pendingInsert := false }

theorem Record.Along.wrote (along : r.Along tr) (he : s.engine = Host.engine)
    (hw : r.write t s h = (.ok k, r', h')) : ∃ x f j, h.server.opened r.handle = .ok (x, f) ∧
      h'.image? r.handle = some j ∧ r.Wrote tr.row k r' f.image j := by
  rcases r.write_cases t he h with ⟨e, g, herror⟩ | ⟨k, g, hwrite, hok⟩
  · rw [hw] at herror
    cases herror
  · rw [hw] at hok
    cases hok
    obtain ⟨x, f, ho, rfl, hstored, hj⟩ := Host.writeRow_eq_ok hwrite
    rw [along.target] at hstored hj ⊢
    refine ⟨x, f, _, ho, hj, ?_, ?_, Image.get?_store_self, fun k' => Image.get?_store_ne, rfl⟩
    · cases htarget : tr.row with
      | none => exact .inr ⟨rfl, rfl⟩
      | some k => exact .inl ⟨rfl, hstored k htarget⟩
    · intro made
      cases htarget : tr.row with
      | none =>
        have hfree : f.image.rows.contains (f.image.store none r.values).1 = false := by
          rw [Rows.contains, Image.store, made.next_free]
          rfl
        simp [hfree]
      | some k => exact ⟨fun _ => rfl, fun _ => hstored k htarget⟩

def Act.Spares (n : String) : Act → Prop
  | .newRecord m _ | .dropRecord m => m ≠ n
  | .restart _ => False
  | _ => True

def Step.Spares (n : String) : Step → Prop
  | .act a => a.Spares n
  | .call _ => True

namespace Workspace

variable {w w' : Workspace Host} {n m o : String} {a : Act} {answer : Except Error Unit} {x : Step}
  {xs : List Step}

def follow (w : Workspace Host) (n : String) (tr : Trail) : Step → Trail
  | .act (.record m c) =>
    if m = n then
      match w.record? n with
      | some (r, t, s) =>
        tr.after (fun answer => tr.told t s (w.state.row? r.handle) answer c)
          (r.answer t s w.state c)
      | none => tr
    else tr
  | _ => tr

def trail (w : Workspace Host) (n : String) (tr : Trail) : List Step → Trail
  | [] => tr
  | x :: xs => (w.step x).trail n (w.follow n tr x) xs

theorem follow_of_ne (tr : Trail) (other : ∀ c, a ≠ .record n c) : w.follow n tr (.act a) = tr := by
  cases a with
  | record m c =>
    have hne : m ≠ n := fun heq => other c (heq ▸ rfl)
    rw [follow, if_neg hne]
  | _ => rfl

theorem attempt_records (attempted : w.attempt a = some (answer, w')) (spares : a.Spares n)
    (other : ∀ c, a ≠ .record n c) : get? w'.records n = get? w.records n := by
  cases a with
  | newSession name config =>
    obtain ⟨w', added, ⟨⟩⟩ := Option.map_eq_some_iff.1 attempted
    obtain ⟨w₁, dropped, ⟨⟩⟩ := Option.bind_eq_some_iff.1 added
    rw [← (dropSession_eq_some dropped).2.1]
  | dropSession name =>
    obtain ⟨w', dropped, ⟨⟩⟩ := Option.map_eq_some_iff.1 attempted
    rw [(dropSession_eq_some dropped).2.1]
  | session name call =>
    simp only [attempt] at attempted
    obtain ⟨s, -, -, rfl⟩ := onSession_eq_some attempted
    rfl
  | newTable name session =>
    obtain ⟨w', added, ⟨⟩⟩ := Option.map_eq_some_iff.1 attempted
    obtain ⟨⟨⟩, -, added⟩ := Option.bind_eq_some_iff.1 added
    obtain ⟨w₁, dropped, ⟨⟩⟩ := Option.bind_eq_some_iff.1 added
    rw [← (dropTable_eq_some dropped).2.1]
  | dropTable name =>
    obtain ⟨w', dropped, ⟨⟩⟩ := Option.map_eq_some_iff.1 attempted
    rw [(dropTable_eq_some dropped).2.1]
  | table name call =>
    obtain ⟨-, attempted⟩ := onFreeTable_eq_some attempted
    obtain ⟨owner, t, s, -, -, -, rfl⟩ := onTable_eq_some attempted
    rfl
  | close name =>
    simp only [attempt] at attempted
    obtain ⟨owner, t, s, -, -, -, rfl⟩ := onTable_eq_some attempted
    rfl
  | newRecord name table =>
    obtain ⟨added, hadded, hanswer⟩ := Option.map_eq_some_iff.1 attempted
    obtain ⟨⟨t, s⟩, -, ⟨⟩⟩ := Option.bind_eq_some_iff.1 hadded
    cases hmade : Record.ofTable t s <;> rw [hmade] at hanswer <;> cases hanswer
    · rfl
    · exact get?_set_ne _ _ spares
  | dropRecord name =>
    cases attempted
    exact get?_erase_ne _ spares
  | record name call =>
    simp only [attempt] at attempted
    obtain ⟨table, record, t, s, -, -, -, rfl⟩ := onRecord_eq_some attempted
    have hne : name ≠ n := fun heq => other call (heq ▸ rfl)
    exact get?_set_ne _ _ hne
  | device faults =>
    cases attempted
    rfl
  | restart => exact spares.elim

theorem Change.record?_kept (change : w.Change w') (found : w.record? n = some (r, t, s))
    (same : get? w'.records n = get? w.records n) : ∃ t' s', w'.record? n = some (r, t', s') := by
  obtain ⟨m, hr, found⟩ := record?_eq_some.1 found
  obtain ⟨o, entry, hs⟩ := table?_eq_some.1 found
  suffices kept : ∃ o' t' s', get? w'.tables m = some (o', t') ∧ w'.session? o' = some s' by
    obtain ⟨o', t', s', entry', hs'⟩ := kept
    exact ⟨t', s', record?_eq_some.2 ⟨m, same.trans hr, table?_eq_some.2 ⟨o', entry', hs'⟩⟩⟩
  have present {β : Type} {k l : String} {u v : β} {map : FiniteMap String β}
      (hv : get? map l = some v) : ∃ v', get? (set map k u) l = some v' := by
    rw [get?_set]
    split
    · exact ⟨u, rfl⟩
    · exact ⟨v, hv⟩
  cases change with
  | session | sessionAdded =>
    obtain ⟨s', hs'⟩ := present hs
    exact ⟨o, t, s', entry, hs'⟩
  | @sessionDropped name s' found free =>
    have hne : name ≠ o := by
      rintro rfl
      have hany : w.hasTables name = true :=
        List.any_eq_true.2 ⟨(m, name, t), mem_of_get? entry, beq_self_eq_true name⟩
      rw [free] at hany
      cases hany
    exact ⟨o, t, s, entry, (get?_erase_ne _ hne).trans hs⟩
  | @table name owner u v call entry' found' free | @closed name owner u v entry' found' =>
    by_cases hname : name = m
    · subst hname
      exact ⟨owner, _, v, get?_set_self _ _ _, found'⟩
    · exact ⟨o, t, s, (get?_set_ne _ _ hname).trans entry, hs⟩
  | tableDropped _ _ free =>
    exact ⟨o, t, s, (get?_erase_ne _ (ne_of_free free hr)).trans entry, hs⟩
  | tableAdded _ free =>
    exact ⟨o, t, s, (get?_set_ne _ _ (ne_of_free free hr)).trans entry, hs⟩
  | recordAdded | recordDropped | record | device => exact ⟨o, t, s, entry, hs⟩
  | restarted =>
    rw [hr] at same
    cases same

theorem next_record?_kept (found : w.record? n = some (r, t, s)) (spares : a.Spares n)
    (other : ∀ c, a ≠ .record n c) : ∃ t' s', (w.next a).record? n = some (r, t', s') := by
  unfold next
  split
  · rename_i w' attempted
    have records := attempt_records attempted spares other
    obtain ⟨w₁, same, first, second⟩ := attempt_changes attempted
    have middle : ∃ t₁ s₁, w₁.record? n = some (r, t₁, s₁) := by
      rcases first with rfl | change
      · exact ⟨t, s, found⟩
      · exact change.record?_kept found (by rw [same])
    obtain ⟨t₁, s₁, found₁⟩ := middle
    rcases second with rfl | change
    · exact ⟨t₁, s₁, found₁⟩
    · exact change.record?_kept found₁ (by rw [records, same])
  · exact ⟨t, s, found⟩

theorem next_record (found : w.record? n = some (r, t, s)) (c : RecordCall) :
    (w.next (.record n c)).record? n = some ((r.call c t s w.state).2.1, t, s) := by
  obtain ⟨m, hr, found⟩ := record?_eq_some.1 found
  have hnext : w.next (.record n c) = { w with
      state := (r.call c t s w.state).2.2
      records := set w.records n (m, (r.call c t s w.state).2.1) } := by
    simp [next, attempt, onRecord, hr, found]
  rw [hnext]
  exact record?_eq_some.2 ⟨m, get?_set_self _ _ _, found⟩

theorem step_along (standing : w.Standing) (found : w.record? n = some (r, t, s))
    (along : r.Along tr) (spares : x.Spares n) :
    ∃ r' t' s', (w.step x).record? n = some (r', t', s') ∧ r'.Along (w.follow n tr x) := by
  cases x with
  | call q => exact ⟨r, t, s, found, along⟩
  | act a =>
    by_cases other : ∀ c, a ≠ .record n c
    · obtain ⟨t', s', found'⟩ := next_record?_kept found spares other
      rw [follow_of_ne tr other]
      exact ⟨r, t', s', found', along⟩
    · obtain ⟨c, rfl⟩ : ∃ c, a = .record n c := by
        simpa only [ne_eq, not_forall, not_not] using other
      obtain ⟨m, -, hm⟩ := record?_eq_some.1 found
      obtain ⟨o, -, hs⟩ := table?_eq_some.1 hm
      refine ⟨_, t, s, next_record found c, ?_⟩
      rw [follow, if_pos rfl, found]
      exact Record.call_along (standing.hosted hs) along c

theorem trail_along (standing : w.Standing) (found : w.record? n = some (r, t, s))
    (along : r.Along tr) (spares : ∀ x ∈ xs, x.Spares n) :
    ∃ r' t' s', (w.steps xs).record? n = some (r', t', s') ∧ r'.Along (w.trail n tr xs) := by
  induction xs generalizing w tr r t s with
  | nil => exact ⟨r, t, s, found, along⟩
  | cons x xs ih =>
    obtain ⟨hx, hxs⟩ := List.forall_mem_cons.1 spares
    obtain ⟨r', t', s', found', along'⟩ := step_along standing found along hx
    exact ih (standing.step x) found' along' hxs

theorem steps_madeAt {l : Location} (standing : w.Standing) (hl : l.IsTable)
    (made : w.state.MadeAt l) (xs : List Step) : (w.steps xs).state.MadeAt l := by
  obtain ⟨es, -, hes⟩ := (steps_reaches standing xs).2
  rw [hes]
  exact made.run standing.sane.registered hl es

theorem addRecord_along {table : String}
    (added : w.attempt (.newRecord n table) = some (.ok (), w')) :
    w'.state = w.state ∧ ∃ r t s, w'.table? table = some (t, s) ∧ w'.record? n = some (r, t, s) ∧
      r.Along ⟨none, t.initialValues⟩ := by
  obtain ⟨result, hresult, hanswer⟩ := Option.map_eq_some_iff.1 added
  obtain ⟨⟨t, s⟩, found, ⟨⟩⟩ := Option.bind_eq_some_iff.1 hresult
  cases hmade : Record.ofTable t s with
  | error e =>
    rw [hmade] at hanswer
    cases hanswer
  | ok r =>
    rw [hmade] at hanswer
    cases hanswer
    obtain ⟨id, -, ⟨⟩⟩ := bind_eq_ok.1 hmade
    exact ⟨rfl, _, t, s, found, record?_eq_some.2 ⟨table, get?_set_self _ _ _, found⟩, rfl, rfl⟩

/-- Whatever else is done meanwhile, a record has the values that its trail tells, and its writes
go where that leads. One that stands for a row updates that row; any other puts in a new one, in a
table that calls made. The row is then what the buffer is, all others are as before, and the record is
on it. What fails leaves the record as it is, except that moving to an end of an empty table leaves it
beyond. -/
theorem writes_follow_trail (config : EngineConfig) (disk : Disk) (pre xs : List Step)
    {n table : String} {w₀ : Workspace Host}
    (added : ((start config disk).steps pre).attempt (.newRecord n table) = some (.ok (), w₀))
    (spares : ∀ x ∈ xs, x.Spares n) : ∃ t₀ s₀, w₀.table? table = some (t₀, s₀) ∧
      let w := w₀.steps xs
      let tr := w₀.trail n ⟨none, t₀.initialValues⟩ xs
      ∃ r t s, w.record? n = some (r, t, s) ∧ r.values = tr.values ∧
        (∀ k r' h', r.write t s w.state = (.ok k, r', h') → ∃ x f j,
          w.state.server.opened r.handle = .ok (x, f) ∧ h'.image? r.handle = some j ∧
          r.Wrote tr.row k r' f.image j ∧
          ∀ ys zs, pre = ys ++ zs → ((start config disk).steps ys).state.MadeAt f.location →
            f.image.Made) ∧
        (∀ c e, (r.call c t s w.state).1 = .error e → (r.call c t s w.state).2.1 = r) ∧
        r.KeptOrBeyond w.state (r.first t s w.state) ∧
        r.KeptOrBeyond w.state (r.last t s w.state) := by
  have start : (start config disk).Standing := standing_start config disk
  obtain ⟨before, reaches⟩ := steps_reaches start pre
  obtain ⟨hstate, r₀, t₀, s₀, found₀, record₀, along₀⟩ := addRecord_along added
  have standing₀ : w₀.Standing := by
    have standing := before.step (.act (.newRecord n table))
    rw [step, next, added] at standing
    exact standing
  refine ⟨t₀, s₀, found₀, ?_⟩
  intro w tr
  obtain ⟨standing, later⟩ : w.Standing ∧ _ := steps_reaches standing₀ xs
  obtain ⟨r, t, s, record, along⟩ := trail_along standing₀ record₀ along₀ spares
  obtain ⟨m, -, found⟩ := record?_eq_some.1 record
  obtain ⟨o, -, hs⟩ := table?_eq_some.1 found
  have he := standing.hosted hs
  refine ⟨r, t, s, record, along.values, ?_, fun c e => r.call_of_error t he c,
    r.move_keptOrBeyond t he (.inl rfl) _, r.move_keptOrBeyond t he (.inr rfl) _⟩
  intro k r' h' hw
  obtain ⟨x, f, j, ho, hj, wrote⟩ := along.wrote he hw
  refine ⟨x, f, j, ho, hj, wrote, fun ys zs hpre made => ?_⟩
  have hf := (Server.opened_eq_ok.1 ho).2
  have hl : f.location.IsTable := by
    obtain ⟨es, -, hes⟩ := reaches.trans (hstate ▸ later)
    have hrun : w.state = (Host.start config disk).run es := hes
    rw [hrun] at hf
    exact Host.onTables_run config disk es _ f hf
  have made := steps_madeAt (steps_reaches start ys).1 hl made zs
  rw [← steps_append, ← hpre, ← hstate] at made
  exact (steps_madeAt standing₀ hl made xs).image _ f hf rfl

def creating : List Step := opening ++
  [.act (.table "t" (.addField "id" .uInteger 4 {})), .act (.table "t" (.create "t" .normal))]

def refilling (between : List RecordCall) : List Step :=
  let calls : List RecordCall := [.set (.number 0) (.unsigned 5), .write] ++ between ++
    [.set (.number 0) (.unsigned 6)]
  calls.map fun c => .act (.record "r" c)

theorem refilling_followed : ∃ w₀, ((start {} .empty).steps creating).attempt
      (.newRecord "r" "t") = some (.ok (), w₀) ∧
    ∀ between row k, (between, row, k) ∈ [([], some 1, 1), ([.clear], none, 2)] →
      ∃ r t s r' h' i j, (w₀.steps (refilling between)).record? "r" = some (r, t, s) ∧
        r.write t s (w₀.steps (refilling between)).state = (.ok k, r', h') ∧
        (w₀.steps (refilling between)).state.image? r.handle = some i ∧
        h'.image? r.handle = some j ∧ (i.rows.contains k = true ↔ row = some k) ∧
        j.rows.get? k = some [.unsigned 6] ∧ ∀ k', k' ≠ k → j.rows.get? k' = i.rows.get? k' := by
  have hadded : (((start {} .empty).steps creating).attempt (.newRecord "r" "t")).map (·.1.isOk) =
      some true := by decide +kernel
  obtain ⟨⟨answer, w₀⟩, added, hanswer⟩ := Option.map_eq_some_iff.1 hadded
  obtain ⟨⟨⟩, rfl⟩ := exists_of_isOk hanswer
  have hnext : ((start {} .empty).steps creating).next (.newRecord "r" "t") = w₀ := by
    rw [next, added]
  refine ⟨w₀, added, fun between row k hcase => ?_⟩
  have hrun : (w₀.table? "t").map (fun x =>
      (w₀.trail "r" ⟨none, x.1.initialValues⟩ (refilling between)).row) = some row ∧
      ((w₀.steps (refilling between)).record? "r").map (fun x => (x.1.values,
        (x.1.write x.2.1 x.2.2 (w₀.steps (refilling between)).state).1.toOption)) =
      some ([.unsigned 6], some k) := by
    rw [← hnext]
    simp only [List.mem_cons, Prod.mk.injEq, List.not_mem_nil, or_false] at hcase
    rcases hcase with ⟨rfl, rfl, rfl⟩ | ⟨rfl, rfl, rfl⟩ <;> refine ⟨?_, ?_⟩ <;> decide +kernel
  obtain ⟨hrow, hrecord⟩ := hrun
  have spares : ∀ x ∈ refilling between, x.Spares "r" := by
    intro x hx
    obtain ⟨c, -, rfl⟩ := List.mem_map.1 hx
    trivial
  obtain ⟨t₀, s₀, found₀, r, t, s, found, -, writes, -⟩ :=
    writes_follow_trail {} .empty creating (refilling between) added spares
  rw [found₀, Option.map_some, Option.some.injEq] at hrow
  rw [found, Option.map_some, Option.some.injEq, Prod.mk.injEq] at hrecord
  obtain ⟨hvalues, hanswer⟩ := hrecord
  generalize hw : r.write t s (w₀.steps (refilling between)).state = written at hanswer
  obtain ⟨_ | k', r', h'⟩ := written <;> cases hanswer
  obtain ⟨x, f, j, ho, hj, wrote, made⟩ := writes k r' h' hw
  have vacant : Disk.empty.bytes? f.location = none := by cases f.location <;> rfl
  have made := made [] creating rfl (Host.madeAt_start {} vacant)
  refine ⟨r, t, s, r', h', f.image, j, found, hw, Host.image?_eq_some.2 ⟨x, f, ho, rfl⟩, hj, ?_, ?_,
    wrote.others⟩
  · rw [wrote.updates_iff made, hrow]
  · rw [wrote.stored, hvalues]

end Workspace
end Isam
