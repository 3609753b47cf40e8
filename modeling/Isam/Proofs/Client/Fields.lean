import Isam.Proofs.Client.Steps
namespace Isam

open FiniteMap

variable {h h' : Host} {s : Session Host} {t t' : Table} {i : Image} {id : HandleId}

namespace Host

theorem image?_registerNew (h : Host) (c : ConnectionId) (p : TablePath) (i : Image) (m : OpenMode)
    (d : Disk) : image? ⟨(h.server.registerNew c p i m).2, d⟩ (h.server.registerNew c p i m).1 =
      some i :=
  image?_eq_some.2 ⟨_, _, Server.opened_eq_ok.2 ⟨get?_set_self _ _ _, get?_set_self _ _ _⟩, rfl⟩

theorem createTable_image {c : ConnectionId} {a : TableAddress} {schema : Schema} {m : CreateMode}
    (ho : h.createTable c a schema m = (.ok id, h')) :
    h'.image? id = some (.ofSchema schema.numbered) := by
  obtain ⟨p, d, rfl, rfl, -⟩ := Effect.createTable_made ho
  exact h.image?_registerNew c p _ _ d

theorem readSchema_eq_ok {schema : Schema} (hr : h.server.readSchema id = .ok schema) :
    ∃ i, h.image? id = some i ∧ i.schema = schema := by
  obtain ⟨⟨x, f⟩, ho, ⟨⟩⟩ := bind_eq_ok.1 hr
  exact ⟨f.image, image?_eq_some.2 ⟨x, f, ho, rfl⟩, rfl⟩

end Host

theorem Server.Opens.connection_given {u v : Server} {x : Handle} (opens : u.Opens id x v)
    (inv : v.Registered) : x.connection < v.nextId := by
  have hx := (opens.handles id).trans (if_pos rfl)
  exact inv.below _ (List.mem_append_left _ (inv.live hx))

namespace Table

def Numbered (t : Table) : Prop :=
  ∀ (k : Nat) (f : Field), t.fields[k]? = some f → f.number = k

theorem field_of_select {selector : Selector} {f : Field} (hs : t.select selector = .ok f) :
    ∃ k : Nat, t.fields[k]? = some f := by
  cases selector with
  | number n =>
    simp only [select, field] at hs
    split at hs
    · rename_i hf
      cases hs
      exact ⟨n, hf⟩
    · cases hs
  | named name =>
    simp only [select, fieldNamed] at hs
    split at hs
    · rename_i hf
      cases hs
      obtain ⟨k, -, hf⟩ := Option.bind_eq_some_iff.1 hf
      exact ⟨k, hf⟩
    · cases hs

theorem Numbered.of_select (numbered : t.Numbered) {selector : Selector} {f : Field}
    (hs : t.select selector = .ok f) : t.fields[f.number]? = some f := by
  obtain ⟨k, hk⟩ := field_of_select hs
  rw [numbered k f hk]
  exact hk

theorem map_toDecl_ofDecl (owner : TableId) (ds : List FieldDecl) :
    (ds.map (Field.ofDecl owner)).map (·.toDecl) = ds := by
  rw [List.map_map]
  exact List.map_id'' (Field.toDecl_ofDecl owner) ds

theorem defaultStored_of_checkDefault {name : String} {f : Field}
    (hd : checkDefault name f.type f.length f.properties = .ok ()) : f.toDecl.DefaultStored := by
  intro v hv
  have hv : f.properties.default? = some v := hv
  unfold checkDefault at hd
  simp only [hv] at hd
  split at hd
  · assumption
  · cases hd

inductive Recast (t : Table) (s : Session Host) : Table → Host → Prop
  | kept {t' : Table} {h' : Host} (fields : t'.fields = t.fields)
    (binding : t'.binding = t.binding) : Recast t s t' h'
  | extended {t' : Table} {h' : Host} {f : Field} (unbound : t.live? s = none)
    (number : f.number = t.fields.length) (default : f.toDecl.DefaultStored)
    (fields : t'.fields = t.fields ++ [f]) (binding : t'.binding = t.binding) : Recast t s t' h'
  | bound {t' : Table} {h' : Host} {c : ConnectionId} {id : HandleId} {m : OpenMode} {i : Image}
    (connection_given : c < h'.server.nextId) (handle_given : id < h'.server.nextId)
    (image : h'.image? id = some i) (schema : i.schema.fields = t'.fields.map (·.toDecl))
    (fields : t'.fields = t.fields ∨ t'.fields = i.schema.fields.map (Field.ofDecl t.id))
    (binding : t'.binding = some ⟨c, id, m⟩) : Recast t s t' h'

theorem Called.recast (called : t.Called s h t' h') (inv : h.server.Registered) :
    t.Recast s t' h' := by
  cases called with
  | kept fields binding => exact .kept fields binding
  | extended unbound number checked fields binding =>
    exact .extended unbound number (defaultStored_of_checkDefault checked) fields binding
  | created _ made fields binding =>
    obtain ⟨file, opens⟩ := Host.createTable_opens made
    have given := opens.connection_given (Host.createTable_registered inv made)
    refine .bound given opens.given (Host.createTable_image made) ?_ (.inl fields) binding
    rw [fields]
    rfl
  | stored _ opened read fields binding =>
    obtain ⟨file, opens⟩ := Host.openTable_opens opened
    have given := opens.connection_given (Host.openTable_registered inv opened)
    obtain ⟨i, hi, rfl⟩ := Host.readSchema_eq_ok read
    refine .bound given opens.given hi ?_ (.inr fields) binding
    rw [fields, map_toDecl_ofDecl]
  | returned => exact .kept rfl rfl

end Table

theorem Table.Recast.numbered (recast : t.Recast s t' h') (numbered : t.Numbered)
    (valid : h'.Images (·.schema.Valid)) : t'.Numbered := by
  intro k f hf
  cases recast with
  | kept fields =>
    rw [fields] at hf
    exact numbered k f hf
  | @extended g _ number _ fields =>
    rw [fields, List.getElem?_append] at hf
    split at hf
    · exact numbered k f hf
    · rename_i hk
      rw [List.getElem?_singleton] at hf
      split at hf
      · cases hf
        omega
      · cases hf
  | bound _ _ image _ fields =>
    rcases fields with fields | fields
    · rw [fields] at hf
      exact numbered k f hf
    · rw [fields, List.getElem?_map] at hf
      obtain ⟨d, hd, rfl⟩ := Option.map_eq_some_iff.1 hf
      exact (valid.image image).field_number hd

/-! Where the fields come from that tables and table files have. -/

variable {P : FieldDecl → Prop}

theorem Request.eachField_of_onRows {q : Request} (hq : q.OnRows) : q.EachField P := by
  cases q <;> trivial

theorem Session.eachField_of_asks {q : Request} (hq : Session.Asks q) : q.EachField P := by
  cases q <;> trivial

namespace Table

theorem eachField_of_asks (old : ∀ f ∈ t.fields, P f.toDecl) {q : Request} (hq : t.Asks q) :
    q.EachField P := by
  cases q with
  | createTable c a schema m =>
    intro d hd
    rw [show schema = t.schema from hq] at hd
    obtain ⟨f, hf, rfl⟩ := List.mem_map.1 hd
    exact old f hf
  | _ => trivial

/-- What a call makes of a table and of the host. One that fails leaves the table as it is. -/
inductive Yields (t : Table) (s : Session Host) (h : Host) : TableCall → Table → Host → Prop
  | failed (call : TableCall) (h' : Host) : Yields t s h call t h'
  | path (text : String) : Yields t s h (.setPath text) (t.setPath text) h
  | field {name : String} {type : FieldType} {length : UInt32} {p : Properties} {f : Field}
    {u : Table} (added : t.addField s name type length p = .ok (f, u)) :
    Yields t s h (.addField name type length p) u h
  | index {name : String} {kind : IndexKind} {i : Index} {u : Table}
    (added : t.addIndex s name kind = .ok (i, u)) : Yields t s h (.addIndex name kind) u h
  | edited {name : String} {edit : IndexEdit} {u : Table}
    (edited : t.editIndex name edit.apply = .ok u) : Yields t s h (.editIndex name edit) u h
  | segment {index field : String} {mode : SegmentMode} {f : Field} {u : Table}
    (found : t.fieldNamed field = .ok f)
    (edited : t.editIndex index (IndexEdit.addSegment f mode).apply = .ok u) :
    Yields t s h (.addSegment index field mode) u h
  | created {name : String} {m : CreateMode} {c : ConnectionId} {id : HandleId} {h' : Host}
    (made : h.createTable c (s.addressOf t.path name) t.schema m = (.ok id, h')) :
    Yields t s h (.create name m) { t with
      indexes := t.indexes.map (·.freeze)
      name := some name
      binding := some ⟨c, id, .normal⟩ } h'
  | opened {name : String} {m : OpenMode} {c : ConnectionId} {id : HandleId} {h' : Host}
    {schema : Schema} {loaded : Table}
    (opened : t.openStored s name m h = (.ok (), { loaded with
      name := some name
      binding := some ⟨c, id, m⟩ }, h'))
    (asked : h.openTable c (s.addressOf t.path name) m = (.ok id, h'))
    (read : h'.server.readSchema id = .ok schema) (load : t.load schema = .ok loaded) :
    Yields t s h (.openStored name m) { loaded with
      name := some name
      binding := some ⟨c, id, m⟩ } h'

theorem Yields.of_changed {call : TableCall} {r : Except Error Table}
    (hr : ∀ u, r = .ok u → t.Yields s h call u h) :
    t.Yields s h call (changed t h r).2.1 (changed t h r).2.2 := by
  cases r with
  | error e => exact .failed call h
  | ok u => exact hr u rfl

theorem yields (t : Table) (he : s.engine = Host.engine) (call : TableCall) (h : Host) :
    t.Yields s h call (t.call call s h).2.1 (t.call call s h).2.2 := by
  cases call with
  | setPath text => exact .path text
  | addField =>
    refine .of_changed fun u hr => ?_
    obtain ⟨f, added⟩ := map_snd_eq_ok hr
    exact .field added
  | addIndex =>
    refine .of_changed fun u hr => ?_
    obtain ⟨i, added⟩ := map_snd_eq_ok hr
    exact .index added
  | editIndex => exact .of_changed fun u edited => .edited edited
  | addSegment =>
    refine .of_changed fun u hr => ?_
    obtain ⟨f, found, edited⟩ := bind_eq_ok.1 hr
    exact .segment found edited
  | create name m =>
    rcases t.create_cases he name m h with ⟨e, h', refused, -⟩ | ⟨c, id, h', -, made, created⟩
    · simp only [call, refused]
      exact .failed _ h'
    · simp only [call, created]
      exact .created made
  | openStored name m =>
    rcases t.openStored_cases he name m h with ⟨e, h', refused, -⟩ |
      ⟨c, id, h', -, asked, ⟨e, returned⟩ | ⟨schema, loaded, read, load, opened⟩⟩
    · simp only [call, refused]
      exact .failed _ h'
    · simp only [call, returned]
      exact .failed _ _
    · simp only [call, opened]
      exact .opened opened asked read load

theorem Yields.field_from {call : TableCall} {u : Table} (yields : t.Yields s h call u h') {f : Field}
    (hf : f ∈ u.fields) : f ∈ t.fields ∨
      (∃ u, t.addField s f.name f.type f.length f.properties = .ok (f, u)) ∨
      ∃ id i, h'.image? id = some i ∧ f.toDecl ∈ i.schema.fields := by
  cases yields with
  | failed | path | created => exact .inl hf
  | @field name type length p g u added =>
    obtain ⟨-, -, hg, hu⟩ := addField_eq_ok added
    rw [hu] at hf
    rcases List.mem_append.1 hf with hf | hf
    · exact .inl hf
    · cases List.mem_singleton.1 hf
      subst hg
      exact .inr (.inl ⟨u, added⟩)
  | index added =>
    obtain ⟨-, rfl⟩ := addIndex_eq_ok added
    exact .inl hf
  | edited edited | segment _ edited =>
    obtain ⟨i, j, -, -, rfl⟩ := editIndex_eq_ok edited
    exact .inl hf
  | opened _ _ read load =>
    simp only [load_eq_ok load] at hf
    obtain ⟨d, hd, rfl⟩ := List.mem_map.1 hf
    obtain ⟨i, hi, rfl⟩ := Host.readSchema_eq_ok read
    exact .inr (.inr ⟨_, i, hi, by rwa [Field.toDecl_ofDecl]⟩)

end Table

namespace Workspace

variable {w w' : Workspace Host}

structure EachField (P : FieldDecl → Prop) (w : Workspace Host) : Prop where
  host : w.state.Images (·.schema.EachField P)
  tables : ∀ {n o t}, get? w.tables n = some (o, t) → ∀ f ∈ t.fields, P f.toDecl

theorem EachField.set_table {n o m p : String} {u : Table} (old : w.EachField P)
    (new : ∀ f ∈ t.fields, P f.toDecl) (hu : get? (set w.tables n (o, t)) m = some (p, u)) :
    ∀ f ∈ u.fields, P f.toDecl := by
  rw [get?_set] at hu
  split at hu
  · cases hu
    exact new
  · exact old.tables hu

theorem Change.eachField (change : w.Change w') (adds : ∀ (t : Table) (s : Session Host) name type
      length p f u, t.addField s name type length p = .ok (f, u) → P f.toDecl)
    (standing : w.Standing) (old : w.EachField P) : w'.EachField P := by
  have sane := standing.sane
  cases change with
  | session call found =>
    have reaches := Session.call_reaches (standing.hosted found) call w.state
    exact ⟨reaches.eachField sane (fun _ => Session.eachField_of_asks) old.host, old.tables⟩
  | sessionDropped found =>
    have reaches := Session.call_reaches (standing.hosted found) .logout w.state
    exact ⟨reaches.eachField sane (fun _ => Session.eachField_of_asks) old.host, old.tables⟩
  | sessionAdded | recordAdded | recordDropped => exact ⟨old.host, old.tables⟩
  | @table n o t s call entry found =>
    have reaches := t.call_reaches (standing.hosted found) call w.state
    have host := reaches.eachField sane (fun _ => Table.eachField_of_asks (old.tables entry)) old.host
    refine ⟨host, old.set_table fun f hf => ?_⟩
    rcases (t.yields (standing.hosted found) call w.state).field_from hf with
      hf | ⟨u, ha⟩ | ⟨id, i, hi, hd⟩
    · exact old.tables entry f hf
    · exact adds _ _ _ _ _ _ f u ha
    · exact host.image hi _ hd
  | @closed n o t s entry found =>
    have reaches := t.close_reaches (standing.hosted found) w.state
    have host := reaches.eachField sane (fun _ => Table.eachField_of_asks (old.tables entry)) old.host
    refine ⟨host, old.set_table fun f hf => old.tables entry f ?_⟩
    rw [t.close_eq (standing.hosted found)] at hf
    exact hf
  | @tableDropped n o t s entry found =>
    have reaches := t.close_reaches (standing.hosted found) w.state
    have host := reaches.eachField sane (fun _ => Table.eachField_of_asks (old.tables entry)) old.host
    exact ⟨host, fun hu => old.tables (Server.get?_erase_eq_some.1 hu).2⟩
  | tableAdded =>
    refine ⟨old.host, old.set_table fun f hf => ?_⟩
    cases hf
  | @record name table r t s call hr found =>
    obtain ⟨o, entry, hs⟩ := table?_eq_some.1 found
    have reaches := r.call_reaches t (standing.hosted hs) call w.state
    exact ⟨reaches.eachField sane (fun _ => Request.eachField_of_onRows) old.host, old.tables⟩
  | device => exact ⟨⟨old.host.opened, old.host.stored⟩, old.tables⟩
  | restarted config => exact ⟨Host.images_start config old.host.stored, nofun⟩

theorem eachField_steps (adds : ∀ (t : Table) (s : Session Host) name type length p f u,
      t.addField s name type length p = .ok (f, u) → P f.toDecl)
    (config : EngineConfig) {disk : Disk} (empty : ∀ l, disk.bytes? l = none) {xs : List Step}
    (hxs : ∀ x ∈ xs, x.EachField P) : ((start config disk).steps xs).EachField P := by
  have start : (start config disk).Standing ∧ (start config disk).EachField P := by
    refine ⟨standing_start config disk, Host.images_start config ?_, nofun⟩
    intro l bs verify i _ hbs
    rw [empty] at hbs
    cases hbs
  have each (w : Workspace Host) (x : Step) (hx : x.EachField P)
      (kept : w.Standing ∧ w.EachField P) : (w.step x).Standing ∧ (w.step x).EachField P := by
    obtain ⟨standing, old⟩ := kept
    cases x with
    | act a =>
      refine next_keeps (P := fun w => w.Standing ∧ w.EachField P) ?_ a ⟨standing, old⟩
      rintro w w' change ⟨standing, old⟩
      exact ⟨change.standing standing, change.eachField adds standing old⟩
    | call q =>
      have host := (w.state.perform_effect q).eachField standing.sane.registered hx old.host
      exact ⟨⟨standing.hosted, standing.sane.next (.call q)⟩, host, old.tables⟩
  exact (steps_keep each hxs start).2

theorem defaultsStored_steps (config : EngineConfig) {disk : Disk}
    (empty : ∀ l, disk.bytes? l = none) {xs : List Step} (hxs : ∀ x ∈ xs, x.DefaultsStored) :
    ((start config disk).steps xs).EachField FieldDecl.DefaultStored := by
  refine eachField_steps (fun t s name type length p f u ha => ?_) config empty
    fun x hx => (hxs x hx).eachField
  obtain ⟨-, checked, rfl, -⟩ := Table.addField_eq_ok ha
  exact Table.defaultStored_of_checkDefault checked

end Workspace
end Isam
