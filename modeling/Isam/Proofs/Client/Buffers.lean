import Isam.Proofs.Client.Fields
namespace Isam

open FiniteMap

variable {h h' : Host} {s : Session Host} {t t' : Table} {r r' : Record} {i : Image}
  {id : HandleId}

theorem Host.moveCursor_eq_ok {index : Option Nat} {m : CursorMove} {row : StoredRow}
    (hm : h.server.moveCursor id index m = .ok (some row)) :
    ∃ i, h.image? id = some i ∧ i.rows.get? row.id = some row.values := by
  obtain ⟨⟨x, f⟩, ho, hm⟩ := bind_eq_ok.1 hm
  obtain ⟨k?, -, hm⟩ := bind_eq_ok.1 hm
  obtain ⟨k, -, hstored⟩ := Option.bind_eq_some_iff.1 (Except.ok.inj hm)
  obtain ⟨values, hrow, rfl⟩ := Option.map_eq_some_iff.1 hstored
  exact ⟨f.image, image?_eq_some.2 ⟨x, f, ho, rfl⟩, hrow⟩

namespace Record

/-- A value for each field that the field can store, or that is its default. -/
structure Fits (r : Record) (t : Table) : Prop where
  width : r.values.length = t.fields.length
  values : ∀ {k : Nat} {f v}, t.fields[k]? = some f → r.values[k]? = some v →
    f.Stores v ∨ f.properties.default? = some v

theorem Fits.of_values (fits : r.Fits t) (fields : t'.fields = t.fields)
    (values : r'.values = r.values) : r'.Fits t' := by
  constructor
  · rw [values, fields, fits.width]
  · intro k f v hf hv
    rw [fields] at hf
    rw [values] at hv
    exact fits.values hf hv

theorem fits_initial (values : r.values = t.initialValues) : r.Fits t := by
  constructor
  · rw [values, Table.initialValues, List.length_map]
  · intro k f v hf hv
    rw [values, Table.initialValues, List.getElem?_map, hf] at hv
    cases hv
    exact f.initialValue_cases

theorem Fits.put (fits : r.Fits t) {f : Field} {v : Value} (hf : t.fields[f.number]? = some f)
    (stores : f.Stores v) (values : r'.values = r.values.set f.number v) : r'.Fits t := by
  constructor
  · rw [values, List.length_set, fits.width]
  · intro k g u hg hu
    rw [values] at hu
    by_cases hk : f.number = k
    · subst hk
      rw [hf] at hg
      cases hg
      rw [List.getElem?_set_self'] at hu
      obtain ⟨_, -, rfl⟩ := Option.map_eq_some_iff.1 hu
      exact .inl stores
    · rw [List.getElem?_set_ne hk] at hu
      exact fits.values hg hu

theorem fits_of_conforms (schema : i.schema.fields = t.fields.map (·.toDecl))
    (conforms : i.schema.Conforms r.values) : r.Fits t := by
  constructor
  · rw [conforms.1, schema, List.length_map]
  · intro k f v hf hv
    have hd : i.schema.fields[k]? = some f.toDecl := by
      rw [schema, List.getElem?_map, hf]
      rfl
    obtain ⟨u, hu, stores⟩ := conforms.checkValue hd
    rw [hu] at hv
    cases hv
    exact .inl stores

inductive Refill (r : Record) (t : Table) (s : Session Host) (h : Host) : Record → Prop
  | kept {r' : Record} (values : r'.values = r.values) : Refill r t s h r'
  | loaded {r' : Record} {i : Image} {k : RowId} (bound : r.checkBound t s = .ok ())
    (image : h.image? r.handle = some i) (stored : i.rows.get? k = some r'.values) :
    Refill r t s h r'
  | cleared {r' : Record} (values : r'.values = t.initialValues) : Refill r t s h r'
  | put {r' : Record} {f : Field} {v : Value} {selector : Selector}
    (selected : t.select selector = .ok f) (stores : f.Stores v)
    (values : r'.values = r.values.set f.number v) : Refill r t s h r'

theorem Refill.same : r.Refill t s h r := .kept rfl

theorem Refill.of_changed {result : Except Error Record}
    (hr : ∀ r', result = .ok r' → r.Refill t s h r') :
    r.Refill t s h (changed r h result).2.1 := by
  cases result with
  | error e => exact .same
  | ok r' => exact hr r' rfl

theorem move_refill (r : Record) (t : Table) (he : s.engine = Host.engine) (m : CursorMove)
    (h : Host) : r.Refill t s h (r.move t s m h).2.1 := by
  rcases r.move_cases t he m h with ⟨e, hmove⟩ | ⟨row?, bound, hrow, hmove⟩ <;> rw [hmove]
  · exact .same
  · cases row? with
    | none => exact .kept rfl
    | some row =>
      obtain ⟨i, hi, hstored⟩ := Host.moveCursor_eq_ok hrow
      exact .loaded bound hi hstored

theorem moveOn_refill (r : Record) (t : Table) (he : s.engine = Host.engine)
    (m : RowId → CursorMove) (h : Host) : r.Refill t s h (r.moveOn t s m h).2.1 := by
  unfold moveOn
  split
  · exact r.move_refill t he _ h
  · exact .same

theorem set_refill {selector : Selector} {u : Value} (hr : r.set t s selector u = .ok r') :
    r.Refill t s h r' := by
  obtain ⟨⟨⟩, -, hr⟩ := bind_eq_ok.1 hr
  obtain ⟨f, selected, hr⟩ := bind_eq_ok.1 hr
  obtain ⟨v, accepted, hr⟩ := bind_eq_ok.1 hr
  unfold put at hr
  split at hr
  · cases hr
    exact .put selected (Field.stores_of_accepted accepted) rfl
  · cases hr

theorem call_refill (r : Record) (t : Table) (he : s.engine = Host.engine) (c : RecordCall)
    (h : Host) : r.Refill t s h (r.call c t s h).2.1 := by
  cases c with
  | first | last => exact r.move_refill t he _ h
  | next | prev => exact r.moveOn_refill t he _ h
  | find mode =>
    simp only [call, find, Prod.map_snd, id_eq]
    split
    · exact .same
    · exact r.move_refill t he _ h
  | write =>
    simp only [call, write]
    split
    · exact .same
    · split <;> exact .kept rfl
  | delete =>
    simp only [call, delete]
    split
    · exact .same
    · split <;> exact .kept rfl
  | lock | get => exact .same
  | clear =>
    refine .of_changed fun r' hr => ?_
    obtain ⟨⟨⟩, -, ⟨⟩⟩ := bind_eq_ok.1 hr
    exact .cleared rfl
  | setIndex =>
    refine .of_changed fun r' hr => ?_
    obtain ⟨⟨⟩, -, hr⟩ := bind_eq_ok.1 hr
    obtain ⟨n, -, ⟨⟩⟩ := bind_eq_ok.1 hr
    exact .kept rfl
  | usePhysicalOrder =>
    refine .of_changed fun r' hr => ?_
    obtain ⟨⟨⟩, -, ⟨⟩⟩ := bind_eq_ok.1 hr
    exact .kept rfl
  | set => exact .of_changed fun r' hr => set_refill hr
  | setText =>
    refine .of_changed fun r' hr => ?_
    obtain ⟨f, -, hr⟩ := bind_eq_ok.1 hr
    obtain ⟨v, -, hr⟩ := bind_eq_ok.1 hr
    exact set_refill hr

structure Filling (P : Image → Prop) (F : Record → Table → Prop) : Prop where
  of_values : ∀ {r r' : Record} {t t' : Table}, F r t → t'.fields = t.fields →
    r'.values = r.values → F r' t'
  initial : ∀ {r : Record} {t : Table}, r.values = t.initialValues → F r t
  put : ∀ {r r' : Record} {t : Table} {f : Field} {v : Value}, F r t →
    t.fields[f.number]? = some f → f.Stores v → r'.values = r.values.set f.number v → F r' t
  loaded : ∀ {r : Record} {t : Table} {i : Image} {k : RowId}, P i →
    i.schema.fields = t.fields.map (·.toDecl) → i.rows.get? k = some r.values → F r t

variable {P : Image → Prop} {F : Record → Table → Prop}

theorem fits_filling : Filling Image.Conforming Fits where
  of_values := Fits.of_values
  initial := fits_initial
  put fits := fits.put
  loaded conforming schema stored :=
    fits_of_conforms schema (conforming _ (Rows.mem_entries_iff.2 stored))

theorem Filling.refill (filling : Filling P F) (refill : r.Refill t s h r') (filled : F r t)
    (numbered : t.Numbered)
    (matching : ∀ i, r.checkBound t s = .ok () → h.image? r.handle = some i →
      P i ∧ i.schema.fields = t.fields.map (·.toDecl)) : F r' t := by
  cases refill with
  | kept values => exact filling.of_values filled rfl values
  | loaded bound image stored =>
    obtain ⟨known, schema⟩ := matching _ bound image
    exact filling.loaded known schema stored
  | cleared values => exact filling.initial values
  | put selected stores values =>
    exact filling.put filled (numbered.of_select selected) stores values

theorem valueAt_eq_ok {n : Nat} (hn : n < r.values.length) : r.valueAt n = .ok r.values[n] := by
  unfold valueAt
  rw [List.getElem?_eq_getElem hn]

variable (width : r.values.length = t.fields.length) (numbered : t.Numbered)

include width numbered

theorem number_lt {selector : Selector} {f : Field} (selected : t.select selector = .ok f) :
    f.number < r.values.length := by
  rw [width]
  exact (List.getElem?_eq_some_iff.1 (numbered.of_select selected)).1

theorem look_eq_ok {selector : Selector} {f : Field}
    (bound : r.checkBound t s = .ok ()) (selected : t.select selector = .ok f) :
    ∃ v, r.values[f.number]? = some v ∧ r.look t s selector = .ok (f, v) := by
  have hlt := number_lt width numbered selected
  have hv := List.getElem?_eq_getElem hlt
  have hvalue := valueAt_eq_ok hlt
  exact ⟨_, hv, bind_eq_ok.2 ⟨(), bound, bind_eq_ok.2 ⟨f, selected,
    bind_eq_ok.2 ⟨_, hvalue, rfl⟩⟩⟩⟩

theorem set_eq_ok {selector : Selector} {f : Field} {u v : Value} (bound : r.checkBound t s = .ok ())
    (selected : t.select selector = .ok f) (accepted : f.accepted u = .ok v) :
    r.set t s selector u = .ok { r with values := r.values.set f.number v } := by
  have hput : r.put f.number v = .ok { r with values := r.values.set f.number v } :=
    if_pos (number_lt width numbered selected)
  exact bind_eq_ok.2 ⟨(), bound, bind_eq_ok.2 ⟨f, selected, bind_eq_ok.2 ⟨v, accepted, hput⟩⟩⟩

omit width in
theorem get_eq_ok {selector : Selector} {v : Value}
    (hg : r.get t s selector = .ok v) :
    ∃ f, t.select selector = .ok f ∧ t.fields[f.number]? = some f ∧
      r.values[f.number]? = some v := by
  obtain ⟨f, hl⟩ := Table.map_snd_eq_ok hg
  obtain ⟨⟨⟩, -, hl⟩ := bind_eq_ok.1 hl
  obtain ⟨g, selected, hl⟩ := bind_eq_ok.1 hl
  obtain ⟨u, hu, ⟨⟩⟩ := bind_eq_ok.1 hl
  refine ⟨f, selected, numbered.of_select selected, ?_⟩
  unfold valueAt at hu
  split at hu
  · rename_i hv
    cases hu
    exact hv
  · cases hu

end Record

namespace Workspace

variable {w w' : Workspace Host} {n m o : String} {P : Image → Prop} {F : Record → Table → Prop}

structure Buffered (F : Record → Table → Prop) (w : Workspace Host) : Prop where
  given : ∀ {n o t b}, get? w.tables n = some (o, t) → t.binding = some b →
    b.connection < w.state.server.nextId ∧ b.handle < w.state.server.nextId
  schema : ∀ {n o t b i}, get? w.tables n = some (o, t) → t.binding = some b →
    w.connection? o = some b.connection → w.state.image? b.handle = some i →
    i.schema.fields = t.fields.map (·.toDecl)
  numbered : ∀ {n o t}, get? w.tables n = some (o, t) → t.Numbered
  records : ∀ {n m r o t}, get? w.records n = some (m, r) → get? w.tables m = some (o, t) →
    F r t

theorem buffered_start (config : EngineConfig) (disk : Disk) : (start config disk).Buffered F :=
  ⟨nofun, nofun, nofun, nofun⟩

theorem Buffered.of_tables (buffered : w.Buffered F) (carries : w.state.Carries w'.state)
    (tables : ∀ {n o t}, get? w'.tables n = some (o, t) → ∃ t₀, get? w.tables n = some (o, t₀) ∧
      t.fields = t₀.fields ∧ ∀ b, t.binding = some b → t₀.binding = some b)
    (connections : ∀ {o c}, w'.connection? o = some c → c < w.state.server.nextId →
      w.connection? o = some c)
    (records : ∀ {n m r o t}, get? w'.records n = some (m, r) → get? w'.tables m = some (o, t) →
      F r t) : w'.Buffered F where
  given entry hb := by
    obtain ⟨t₀, entry, -, binding⟩ := tables entry
    obtain ⟨hc, hid⟩ := buffered.given entry (binding _ hb)
    exact ⟨Nat.lt_of_lt_of_le hc carries.nextId, Nat.lt_of_lt_of_le hid carries.nextId⟩
  schema entry hb hc hj := by
    obtain ⟨t₀, entry, fields, binding⟩ := tables entry
    obtain ⟨given, hid⟩ := buffered.given entry (binding _ hb)
    obtain ⟨i, hi, hschema⟩ := carries.schema hid hj
    rw [hschema, fields]
    exact buffered.schema entry (binding _ hb) (connections hc given) hi
  numbered entry := by
    obtain ⟨t₀, entry, fields, -⟩ := tables entry
    intro k f hf
    rw [fields] at hf
    exact buffered.numbered entry k f hf
  records := records

theorem Buffered.of_session (buffered : w.Buffered F) (carries : w.state.Carries w'.state)
    (tables : w'.tables = w.tables) (records : w'.records = w.records)
    (connections : ∀ {o c}, w'.connection? o = some c → c < w.state.server.nextId →
      w.connection? o = some c) : w'.Buffered F := by
  refine buffered.of_tables carries ?_ connections ?_
  · intro n o t entry
    exact ⟨t, tables ▸ entry, rfl, fun _ hb => hb⟩
  · intro n m r o t hr entry
    exact buffered.records (records ▸ hr) (tables ▸ entry)

theorem ne_of_free {r : Record} (free : w.hasRecords n = false)
    (hr : get? w.records o = some (m, r)) : n ≠ m := by
  rintro rfl
  have hany : w.hasRecords n = true :=
    List.any_eq_true.2 ⟨(o, n, r), mem_of_get? hr, beq_self_eq_true n⟩
  rw [free] at hany
  cases hany

theorem Buffered.set_table (buffered : w.Buffered F) (carries : w.state.Carries w'.state)
    (free : w.hasRecords n = false) (sessions : w'.sessions = w.sessions)
    (tables : w'.tables = set w.tables n (o, t')) (records : w'.records = w.records)
    (given : ∀ b, t'.binding = some b →
      b.connection < w'.state.server.nextId ∧ b.handle < w'.state.server.nextId)
    (schema : ∀ b i, t'.binding = some b → w.connection? o = some b.connection →
      w'.state.image? b.handle = some i → i.schema.fields = t'.fields.map (·.toDecl))
    (numbered : t'.Numbered) : w'.Buffered F := by
  have hconnection (p : String) : w'.connection? p = w.connection? p := by
    rw [connection?, session?, sessions]
    rfl
  have cases {m p : String} {t : Table} (entry : get? w'.tables m = some (p, t)) :
      (n = m ∧ p = o ∧ t = t') ∨ (n ≠ m ∧ get? w.tables m = some (p, t)) := by
    rw [tables, get?_set] at entry
    split at entry
    · rename_i heq
      cases entry
      exact .inl ⟨heq, rfl, rfl⟩
    · rename_i hne
      exact .inr ⟨hne, entry⟩
  constructor
  · intro m p t b entry hb
    rcases cases entry with ⟨-, -, rfl⟩ | ⟨-, entry⟩
    · exact given b hb
    · obtain ⟨hc, hid⟩ := buffered.given entry hb
      exact ⟨Nat.lt_of_lt_of_le hc carries.nextId, Nat.lt_of_lt_of_le hid carries.nextId⟩
  · intro m p t b j entry hb hc hj
    rw [hconnection] at hc
    rcases cases entry with ⟨-, rfl, rfl⟩ | ⟨-, entry⟩
    · exact schema b j hb hc hj
    · obtain ⟨i, hi, hschema⟩ := carries.schema (buffered.given entry hb).2 hj
      rw [hschema]
      exact buffered.schema entry hb hc hi
  · intro m p t entry
    rcases cases entry with ⟨-, -, rfl⟩ | ⟨-, entry⟩
    · exact numbered
    · exact buffered.numbered entry
  · intro k m r p t hr entry
    rw [records] at hr
    rcases cases entry with ⟨heq, -, -⟩ | ⟨-, entry⟩
    · exact absurd heq (ne_of_free free hr)
    · exact buffered.records hr entry

theorem Buffered.after_table (buffered : w.Buffered F) (carries : w.state.Carries h')
    {t : Table} {s : Session Host} (entry : get? w.tables n = some (o, t))
    (found : w.session? o = some s) (free : w.hasRecords n = false)
    (recast : t.Recast s t' h') (valid : h'.Images (·.schema.Valid)) :
    Buffered F { w with state := h', tables := set w.tables n (o, t') } := by
  have numbered := recast.numbered (buffered.numbered entry) valid
  have old (b : Binding) (hb : t.binding = some b) :
      b.connection < h'.server.nextId ∧ b.handle < h'.server.nextId := by
    obtain ⟨hc, hid⟩ := buffered.given entry hb
    exact ⟨Nat.lt_of_lt_of_le hc carries.nextId, Nat.lt_of_lt_of_le hid carries.nextId⟩
  cases recast with
  | kept fields binding =>
    refine buffered.set_table carries free rfl rfl rfl (fun b hb => old b (binding ▸ hb)) ?_ numbered
    intro b j hb hc hj
    rw [binding] at hb
    obtain ⟨i, hi, hschema⟩ := carries.schema (buffered.given entry hb).2 hj
    rw [hschema, fields]
    exact buffered.schema entry hb hc hi
  | extended unbound _ _ _ binding =>
    refine buffered.set_table carries free rfl rfl rfl (fun b hb => old b (binding ▸ hb)) ?_ numbered
    intro b j hb hc hj
    rw [connection?, found] at hc
    rw [Table.live?_eq_some.2 ⟨binding ▸ hb, hc⟩] at unbound
    cases unbound
  | bound connection_given handle_given image schema _ binding =>
    refine buffered.set_table carries free rfl rfl rfl ?_ ?_ numbered
    · intro b hb
      rw [binding] at hb
      cases hb
      exact ⟨connection_given, handle_given⟩
    · intro b j hb _ hj
      rw [binding] at hb
      cases hb
      have heq := image.symm.trans hj
      cases heq
      exact schema

theorem Buffered.put_record (buffered : w.Buffered F) (carries : w.state.Carries h')
    {r : Record} (filled : ∀ o t, get? w.tables m = some (o, t) → F r t) :
    Buffered F { w with state := h', records := set w.records n (m, r) } := by
  refine buffered.of_tables carries (fun entry => ⟨_, entry, rfl, fun _ hb => hb⟩)
    (fun ho _ => ho) ?_
  intro k p u o t hu entry
  simp only [get?_set] at hu
  split at hu
  · cases hu
    exact filled o t entry
  · exact buffered.records hu entry

theorem Buffered.matching (buffered : w.Buffered F) {t : Table} {s : Session Host}
    (found : w.table? n = some (t, s)) {r : Record} {i : Image}
    (bound : r.checkBound t s = .ok ()) (hi : w.state.image? r.handle = some i) :
    i.schema.fields = t.fields.map (·.toDecl) := by
  obtain ⟨b, live, heq⟩ := Record.checkBound_eq_ok.1 bound
  obtain ⟨hb, hc⟩ := Table.live?_eq_some.1 live
  obtain ⟨o, entry, hs⟩ := table?_eq_some.1 found
  exact buffered.schema entry hb (connection?_eq_some.2 ⟨s, hs, hc⟩) (heq ▸ hi)

structure Continues (w w' : Workspace Host) : Prop where
  carries : w.state.Carries w'.state
  connections : ∀ {o c}, w'.connection? o = some c → c < w.state.server.nextId →
    w.connection? o = some c

theorem Change.continues (change : w.Change w') (standing : w.Standing) :
    (∃ config, w' = start config w.state.disk) ∨ w.Continues w' := by
  cases change with
  | @session n s call found =>
    have reaches := Session.call_reaches (standing.hosted found) call w.state
    have outcome := Session.call_outcome (standing.hosted found) call w.state
    exact .inr ⟨reaches.carries standing.sane,
      connection?_old found outcome fun _ => connection?_set⟩
  | @sessionDropped n s found =>
    have reaches := Session.call_reaches (standing.hosted found) .logout w.state
    have outcome := Session.logout_outcome (standing.hosted found) w.state
    refine .inr ⟨reaches.carries standing.sane, connection?_old found outcome fun m => ?_⟩
    rw [Session.logout_connection, connection?, session?, get?_erase]
    split <;> rfl
  | @sessionAdded n config vacant =>
    refine .inr ⟨.refl _, fun ho _ => ?_⟩
    rwa [connection?_added vacant] at ho
  | @table n o t s call entry found =>
    have reaches := t.call_reaches (standing.hosted found) call w.state
    exact .inr ⟨reaches.carries standing.sane, fun ho _ => ho⟩
  | @closed n o t s entry found | @tableDropped n o t s entry found =>
    have reaches := t.close_reaches (standing.hosted found) w.state
    exact .inr ⟨reaches.carries standing.sane, fun ho _ => ho⟩
  | tableAdded | recordAdded | recordDropped => exact .inr ⟨.refl _, fun ho _ => ho⟩
  | @record name table r t s call hr found =>
    obtain ⟨o, -, hs⟩ := table?_eq_some.1 found
    have reaches := r.call_reaches t (standing.hosted hs) call w.state
    exact .inr ⟨reaches.carries standing.sane, fun ho _ => ho⟩
  | device => exact .inr ⟨⟨Nat.le_refl _, fun {_ j} _ hj => ⟨j, hj, rfl⟩⟩, fun ho _ => ho⟩
  | restarted config => exact .inl ⟨config, rfl⟩

theorem Change.buffered (change : w.Change w') (filling : Record.Filling P F)
    (standing : w.Standing) (valid : w'.state.Images (·.schema.Valid))
    (known : ∀ {id i}, w.state.image? id = some i → P i) (buffered : w.Buffered F) :
    w'.Buffered F := by
  rcases change.continues standing with ⟨config, rfl⟩ | ⟨carries, connections⟩
  · exact buffered_start config w.state.disk
  cases change with
  | session | sessionDropped | sessionAdded | device =>
    exact buffered.of_session carries rfl rfl connections
  | @table n o t s call entry found free =>
    have recast := (t.called (standing.hosted found) call w.state).recast standing.sane.registered
    exact buffered.after_table carries entry found free recast valid
  | @closed n o t s entry found =>
    have tables {m p : String} {u : Table}
        (hm : get? (set w.tables n (o, (t.close s w.state).2.1)) m = some (p, u)) :
        ∃ u₀, get? w.tables m = some (p, u₀) ∧ u.fields = u₀.fields ∧
          ∀ b, u.binding = some b → u₀.binding = some b := by
      rw [t.close_eq (standing.hosted found), get?_set] at hm
      split at hm
      · rename_i heq
        cases hm
        refine ⟨t, heq ▸ entry, rfl, fun b hb => ?_⟩
        cases hb
      · exact ⟨u, hm, rfl, fun _ hb => hb⟩
    refine buffered.of_tables carries tables connections ?_
    intro k m r p u hr hm
    obtain ⟨u₀, hm, fields, -⟩ := tables hm
    exact filling.of_values (buffered.records hr hm) fields rfl
  | tableDropped =>
    refine buffered.of_tables carries ?_ connections ?_
    · intro m p u hm
      exact ⟨u, (Server.get?_erase_eq_some.1 hm).2, rfl, fun _ hb => hb⟩
    · intro k m r p u hr hm
      exact buffered.records hr (Server.get?_erase_eq_some.1 hm).2
  | tableAdded vacant free =>
    refine buffered.set_table carries free rfl rfl rfl ?_ ?_ ?_
    · intro b hb
      cases hb
    · intro b i hb
      cases hb
    · intro k f hf
      cases hf
  | @recordAdded n table t s r found hmade =>
    obtain ⟨handle, -, ⟨⟩⟩ := bind_eq_ok.1 hmade
    refine buffered.put_record carries fun o u hu => ?_
    obtain ⟨p, entry, -⟩ := table?_eq_some.1 found
    rw [entry] at hu
    cases hu
    exact filling.initial rfl
  | recordDropped name =>
    refine buffered.of_tables carries (fun entry => ⟨_, entry, rfl, fun _ hb => hb⟩) connections ?_
    intro k m r p u hr entry
    exact buffered.records (Server.get?_erase_eq_some.1 hr).2 entry
  | @record name table r t s call hr found =>
    obtain ⟨o, entry, hs⟩ := table?_eq_some.1 found
    refine buffered.put_record carries fun p u hu => ?_
    rw [entry] at hu
    cases hu
    have refill := r.call_refill t (standing.hosted hs) call w.state
    exact filling.refill refill (buffered.records hr entry) (buffered.numbered entry)
      fun i bound hi => ⟨known hi, buffered.matching found bound hi⟩
  | restarted config => exact buffered_start config w.state.disk

structure Kept (w : Workspace Host) : Prop extends Standing w where
  made : w.state.SelfMade
  buffered : w.Buffered Record.Fits

theorem Kept.step (kept : w.Kept) (x : Step) : (w.step x).Kept := by
  cases x with
  | act a =>
    refine next_keeps (P := Kept) (fun change kept => ?_) a kept
    have standing := kept.toStanding
    have made := kept.made.reaches (change.reaches standing)
    refine ⟨change.standing standing, made, ?_⟩
    exact change.buffered Record.fits_filling standing made.valid
      (fun hi => (kept.made.image_made hi).conforming) kept.buffered
  | call q =>
    refine ⟨⟨kept.hosted, kept.sane.next (.call q)⟩, kept.made.next (.call q), ?_⟩
    exact kept.buffered.of_session (Host.carries_call kept.sane.registered q) rfl rfl
      fun ho _ => ho

theorem kept_steps (config : EngineConfig) {disk : Disk} (empty : ∀ l, disk.bytes? l = none)
    (xs : List Step) : ((start config disk).steps xs).Kept := by
  have start : (start config disk).Kept :=
    ⟨standing_start config disk, ⟨config, disk, [], empty, rfl⟩, buffered_start config disk⟩
  have each (w : Workspace Host) (x : Step) (_ : True) (kept : w.Kept) : (w.step x).Kept :=
    kept.step x
  exact steps_keep each (fun _ _ => trivial) start

/-- Whatever is done with the objects of an engine, and asked of the engine itself, on a disk that had
no files: all stored rows are as their schemas tell, and the buffer of a record has one value for each
field of its table, so that whatever field is looked at or set is there. Each of them is a value that
the field can store, or else the default of the field; and if no table was ever created in the engine
with a default that its field cannot store, it is one that the field can store, and so of a kind that
the type of the field allows. -/
theorem buffers_fit (config : EngineConfig) (disk : Disk) (empty : ∀ l, disk.bytes? l = none)
    (xs : List Step) :
    let w := (start config disk).steps xs
    (∀ (l : Location) bs, l.IsTable → w.state.disk.bytes? l = some bs →
      ∃ i, (∀ verify, TableFile.decode bs verify = .ok i) ∧ i.Conforming) ∧
    (∀ id i, w.state.image? id = some i → i.Conforming) ∧
    ∀ n r t s, w.record? n = some (r, t, s) →
      (∀ i, r.checkBound t s = .ok () → w.state.image? r.handle = some i →
        i.schema.fields = t.fields.map (·.toDecl)) ∧
      r.values.length = t.fields.length ∧
      (∀ (k : Nat) f v, t.fields[k]? = some f → r.values[k]? = some v →
        f.Stores v ∨ f.properties.default? = some v) ∧
      (∀ selector f, r.checkBound t s = .ok () → t.select selector = .ok f →
        (∃ v, r.values[f.number]? = some v ∧ r.look t s selector = .ok (f, v)) ∧
        ∀ u v, f.accepted u = .ok v →
          r.set t s selector u = .ok { r with values := r.values.set f.number v }) ∧
      ((∀ x ∈ xs, x.DefaultsStored) →
        (∀ (k : Nat) f v, t.fields[k]? = some f → r.values[k]? = some v → f.Stores v) ∧
        ∀ selector v, r.get t s selector = .ok v →
          ∃ f, t.select selector = .ok f ∧ f.type.Allows v.kind) := by
  intro w
  have kept : w.Kept := kept_steps config empty xs
  refine ⟨?_, ?_, ?_⟩
  · intro l bs hl hbs
    obtain ⟨i, made, decoded⟩ := kept.made.bytes_made hl hbs
    exact ⟨i, decoded, made.conforming⟩
  · intro id i hi
    exact (kept.made.image_made hi).conforming
  · intro n r t s found
    obtain ⟨m, hr, found⟩ := record?_eq_some.1 found
    obtain ⟨o, entry, -⟩ := table?_eq_some.1 found
    have fits := kept.buffered.records hr entry
    have numbered := kept.buffered.numbered entry
    refine ⟨?_, fits.width, fun k f v hf hv => fits.values hf hv, ?_, ?_⟩
    · intro i bound hi
      exact kept.buffered.matching found bound hi
    · intro selector f bound selected
      exact ⟨Record.look_eq_ok fits.width numbered bound selected,
        fun u v accepted => Record.set_eq_ok fits.width numbered bound selected accepted⟩
    · intro hxs
      have stores (k : Nat) (f : Field) (v : Value) (hf : t.fields[k]? = some f)
          (hv : r.values[k]? = some v) : f.Stores v := by
        rcases fits.values hf hv with stores | hdefault
        · exact stores
        · have defaults := (defaultsStored_steps config empty hxs).tables entry
          exact defaults f (List.mem_of_getElem? hf) v hdefault
      refine ⟨stores, fun selector v hg => ?_⟩
      obtain ⟨f, selected, hf, hv⟩ := Record.get_eq_ok numbered hg
      exact ⟨f, selected, FieldType.allows_of_checkValue (stores f.number f v hf hv)⟩

def oneRecord : List Step :=
  [.act (.newSession "s" {}), .act (.session "s" (.logon "FAIRCOMS" "" "")),
    .act (.newTable "t" "s"),
    .act (.table "t" (.addField "id" .uInteger 4 { default := some (.value (.unsigned 7)) })),
    .act (.table "t" (.create "t" .normal)), .act (.newRecord "r" "t"),
    .call (.connect "FAIRCOMS" ⟨"", ""⟩), .call (.openTable 4 ⟨⟨""⟩, "t"⟩ .normal),
    .call (.writeRow 5 none [.unsigned 8]), .act (.record "r" .first)]

theorem oneRecord_fits : ∃ r t s,
    ((start {} .empty).steps oneRecord).record? "r" = some (r, t, s) ∧
    r.values = [.unsigned 8] ∧ r.values.length = t.fields.length ∧
    (∀ x ∈ oneRecord, x.DefaultsStored) ∧
    ∀ (k : Nat) f v, t.fields[k]? = some f → r.values[k]? = some v → f.Stores v := by
  have hvalues : (((start {} .empty).steps oneRecord).record? "r").map (·.1.values) =
      some [.unsigned 8] := by decide +kernel
  obtain ⟨⟨r, t, s⟩, found, values⟩ := Option.map_eq_some_iff.1 hvalues
  have hempty : ∀ l, Disk.empty.bytes? l = none := fun l => by cases l <;> rfl
  have hdefaults : ∀ x ∈ oneRecord, x.DefaultsStored := by
    simp [oneRecord, Step.DefaultsStored, Request.DefaultsStored]
  obtain ⟨-, width, -, -, sound⟩ :=
    (buffers_fit {} .empty hempty oneRecord).2.2 "r" r t s found
  exact ⟨r, t, s, found, values, width, hdefaults, (sound hdefaults).1⟩

def textDefault : Schema :=
  .ofDecls [⟨"id", .uInteger, 4, 0, { default := some (.value (.text "x")) }⟩] []

def takenOver : List Step :=
  [.act (.newSession "s" {}), .act (.session "s" (.logon "FAIRCOMS" "" "")),
    .call (.createTable 1 ⟨⟨""⟩, "raw"⟩ textDefault .normal), .act (.newTable "t" "s"),
    .act (.table "t" (.openStored "raw" .normal)), .act (.close "t")]

theorem not_all_buffers_fit :
    ¬ ∀ (config : EngineConfig) (disk : Disk) (xs : List Step) table title mode w' name r t s,
      (∀ l, disk.bytes? l = none) →
      ((start config disk).steps xs).attempt (.table table (.create title mode)) =
        some (.ok (), w') →
      (w'.next (.newRecord name table)).record? name = some (r, t, s) →
      ∀ (k : Nat) f v, t.fields[k]? = some f → r.values[k]? = some v →
        f.type.checkValue f.length v = .ok () := by
  intro always
  have hrun : (((start {} .empty).steps takenOver).attempt
      (.table "t" (.create "t" .normal))).map (fun p => (p.1.isOk,
        ((p.2.next (.newRecord "r" "t")).record? "r").map fun x => (x.1.values,
          x.2.1.fields.map fun f => (f.type, f.length)))) =
      some (true, some ([.text "x"], [(.uInteger, 4)])) := by decide +kernel
  obtain ⟨⟨answer, w'⟩, created, hafter⟩ := Option.map_eq_some_iff.1 hrun
  obtain ⟨hok, hrecord⟩ := Prod.mk.inj hafter
  obtain ⟨⟨r, t, s⟩, found, hcontents⟩ := Option.map_eq_some_iff.1 hrecord
  obtain ⟨hvalues, hfields⟩ := Prod.mk.inj hcontents
  have hempty : ∀ l, Disk.empty.bytes? l = none := fun l => by cases l <;> rfl
  cases answer with
  | error e => cases hok
  | ok u =>
    have stores := always {} .empty takenOver "t" "t" .normal w' "r" r t s hempty created found
    obtain ⟨f, hf, hkind⟩ := List.map_eq_singleton_iff.1 hfields
    have hcheck := stores 0 f (.text "x") (by rw [hf]; rfl) (by rw [hvalues]; rfl)
    obtain ⟨htype, -⟩ := Prod.mk.inj hkind
    rw [htype] at hcheck
    cases hcheck

end Workspace
end Isam