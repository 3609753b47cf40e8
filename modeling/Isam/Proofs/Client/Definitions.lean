import Isam.Proofs.Client.Fields
namespace Isam

variable {s : Session Host} {t u : Table} {h h' : Host} {schema : Schema} {owner : TableId}
  {fields : List Field} {name : String} {i j : Index}

def Field.inTable (owner : TableId) (f : Field) : Field := { f with table := owner }

def Index.inTable (owner : TableId) (i : Index) : Index := { i with table := owner }

def Segment.Of (fields : List Field) (g : Segment) : Prop :=
  ∃ f, fields[g.number]? = some f ∧ f.name = g.field ∧ f.length = g.length

namespace Table

/-- Fields and indexes stand at their numbers, and segments are those of the fields. -/
structure Defined (t : Table) : Prop where
  fields : t.Numbered
  indexes : ∀ (k : Nat) (i : Index), t.indexes[k]? = some i → i.number = k
  segments : ∀ i ∈ t.indexes, ∀ g ∈ i.segments, g.Of t.fields

end Table

def Field.Stands (f : Field) (t : Table) : Prop :=
  ∃ g, t.fields[f.number]? = some g ∧ g.name = f.name ∧ g.length = f.length

/-- A field that is handed in for a segment, and is taken for one of the table, still stands there. -/
def TableCall.Timely (t : Table) : TableCall → Prop
  | .editIndex name (.addSegment f _) =>
    ∀ i, t.indexNamed name = .ok i → f.table = i.table → f.Stands t
  | _ => True

def TableCall.OwnFields (t : Table) : TableCall → Prop
  | .editIndex _ (.addSegment f _) => f ∈ t.fields
  | _ => True

inductive Table.Built : Table → Prop
  | new (id : TableId) : Built { id }
  | called {t : Table} {s : Session Host} (built : Built t) (call : TableCall)
    (own : call.OwnFields t) (hosted : s.engine = Host.engine) (config : EngineConfig) (disk : Disk)
    (es : List Event) : Built (t.call call s ((Host.start config disk).run es)).2.1
  | closed {t : Table} {s : Session Host} (built : Built t) (hosted : s.engine = Host.engine)
    (h : Host) : Built (t.close s h).2.1

theorem Segment.of_numbered {f : Field}
    (numbered : ∀ (k : Nat) (f : Field), fields[k]? = some f → f.number = k) (hf : f ∈ fields)
    (mode : SegmentMode) : Segment.Of fields ⟨f.name, f.number, f.length, mode⟩ := by
  obtain ⟨k, hk⟩ := List.mem_iff_getElem?.1 hf
  refine ⟨f, ?_, rfl, rfl⟩
  show fields[f.number]? = some f
  rw [numbered k f hk, hk]

theorem Table.Numbered.stands (numbered : t.Numbered) {f : Field} (hf : f ∈ t.fields) :
    f.Stands t := Segment.of_numbered numbered hf {}

theorem TableCall.OwnFields.timely {call : TableCall} (own : call.OwnFields t)
    (numbered : t.Numbered) : call.Timely t := by
  cases call with
  | editIndex name edit =>
    cases edit with
    | addSegment => exact fun _ _ _ => numbered.stands own
    | allowDuplicates | allowNullKeys => trivial
  | _ => trivial

theorem Segment.Of.append {g : Segment} (of : g.Of fields) (more : List Field) :
    g.Of (fields ++ more) := by
  obtain ⟨f, hf, hname, hlength⟩ := of
  refine ⟨f, ?_, hname, hlength⟩
  rw [List.getElem?_append_left (List.getElem?_eq_some_iff.1 hf).1, hf]

namespace Index

theorem addSegment_eq_ok {f : Field} {mode : SegmentMode} (ha : i.addSegment f mode = .ok j) :
    f.table = i.table ∧
      j = { i with segments := i.segments ++ [⟨f.name, f.number, f.length, mode⟩] } := by
  obtain ⟨⟨⟩, -, ha⟩ := bind_eq_ok.1 ha
  dsimp only at ha
  split at ha
  · obtain ⟨_, ⟨⟩, _⟩ := bind_eq_ok.1 ha
  · rename_i howner
    cases ha
    exact ⟨not_not.1 howner, rfl⟩

end Index

theorem IndexEdit.apply_eq_ok {edit : IndexEdit} (he : edit.apply i = .ok j) :
    j.name = i.name ∧ j.number = i.number ∧ (j.segments = i.segments ∨ ∃ f mode,
      edit = .addSegment f mode ∧ f.table = i.table ∧
      j.segments = i.segments ++ [⟨f.name, f.number, f.length, mode⟩]) := by
  cases edit with
  | allowDuplicates | allowNullKeys =>
    obtain ⟨⟨⟩, -, ⟨⟩⟩ := bind_eq_ok.1 he
    exact ⟨rfl, rfl, .inl rfl⟩
  | addSegment f mode =>
    obtain ⟨howner, hj⟩ := Index.addSegment_eq_ok he
    rw [hj]
    exact ⟨rfl, rfl, .inr ⟨f, mode, rfl, howner, rfl⟩⟩

namespace Table

theorem indexNamed_eq_ok (hi : t.indexNamed name = .ok i) :
    t.indexes.find? (·.name == name) = some i := by
  unfold indexNamed at hi
  split at hi
  · rename_i hfound
    cases hi
    exact hfound
  · cases hi

theorem getElem?_replaceIndex {is : List Index} {k : Nat} {x : Index}
    (found : is.find? (·.name == j.name) = some i) (hx : (replaceIndex j is)[k]? = some x) :
    is[k]? = some x ∨ (is[k]? = some i ∧ x = j) := by
  induction is generalizing k with
  | nil => cases found
  | cons y is ih =>
    rw [List.find?_cons] at found
    rw [replaceIndex] at hx
    cases hy : y.name == j.name with
    | true =>
      rw [hy] at found
      cases found
      rw [if_pos hy] at hx
      cases k with
      | zero =>
        cases hx
        exact .inr ⟨rfl, rfl⟩
      | succ k => exact .inl hx
    | false =>
      rw [hy] at found
      rw [hy] at hx
      cases k with
      | zero => exact .inl hx
      | succ k => exact ih found hx

theorem Defined.edit (defined : t.Defined) {edit : IndexEdit}
    (timely : (TableCall.editIndex name edit).Timely t)
    (ha : t.editIndex name edit.apply = .ok u) : u.Defined := by
  obtain ⟨i, j, hi, hedit, rfl⟩ := editIndex_eq_ok ha
  obtain ⟨hname, hnumber, hsegments⟩ := IndexEdit.apply_eq_ok hedit
  have hfound := indexNamed_eq_ok hi
  have hiname : i.name = name := by simpa using List.find?_some hfound
  have hmem := List.mem_of_find?_eq_some hfound
  have of : ∀ g ∈ j.segments, g.Of t.fields := by
    rcases hsegments with hsegments | ⟨f, mode, rfl, howner, hsegments⟩ <;> rw [hsegments]
    · exact defined.segments i hmem
    · rw [List.forall_mem_append, List.forall_mem_singleton]
      exact ⟨defined.segments i hmem, timely i hi howner⟩
  rw [← hiname, ← hname] at hfound
  refine ⟨defined.fields, ?_, ?_⟩
  · intro k x hx
    rcases getElem?_replaceIndex hfound hx with hold | ⟨hold, rfl⟩
    · exact defined.indexes k x hold
    · rw [hnumber]
      exact defined.indexes k i hold
  · intro x hx
    obtain ⟨k, hk⟩ := List.mem_iff_getElem?.1 hx
    rcases getElem?_replaceIndex hfound hk with hold | ⟨-, rfl⟩
    · exact defined.segments x (List.mem_of_getElem? hold)
    · exact of

end Table

/-! What is loaded from a stored schema. -/

namespace Index

theorem addDeclared_eq_ok {g : SegmentDecl} (ha : addDeclared fields i g = .ok j) :
    ∃ f ∈ fields, f.name = g.field ∧ j =
      { i with segments := i.segments ++ [⟨f.name, f.number, f.length, g.mode⟩] } := by
  unfold addDeclared at ha
  split at ha
  · rename_i f hfound
    have hname : f.name = g.field := by simpa using List.find?_some hfound
    exact ⟨f, List.mem_of_find?_eq_some hfound, hname, (addSegment_eq_ok ha).2⟩
  · cases ha

theorem addDeclared_found {g : SegmentDecl} {f : Field} (mutable : i.frozen = false)
    (found : fields.find? (·.name == g.field) = some f) (owned : f.table = i.table) :
    addDeclared fields i g =
      .ok { i with segments := i.segments ++ [⟨f.name, f.number, f.length, g.mode⟩] } := by
  simp [addDeclared, found, addSegment, checkMutable, mutable, owned, bind, Except.bind, pure,
    Except.pure]

theorem segments_of_declared {gs : List SegmentDecl}
    (numbered : ∀ (k : Nat) (f : Field), fields[k]? = some f → f.number = k)
    (ha : gs.foldlM (addDeclared fields) i = .ok j) (old : ∀ g ∈ i.segments, g.Of fields) :
    j.number = i.number ∧ ∀ g ∈ j.segments, g.Of fields := by
  induction gs generalizing i with
  | nil =>
    cases ha
    exact ⟨rfl, old⟩
  | cons g gs ih =>
    obtain ⟨k, hk, ha⟩ := bind_eq_ok.1 ha
    obtain ⟨f, hf, -, rfl⟩ := addDeclared_eq_ok hk
    have of := Segment.of_numbered numbered hf g.mode
    have hrest := ih ha (List.forall_mem_append.2 ⟨old, List.forall_mem_singleton.2 of⟩)
    exact hrest

end Index

theorem Table.indexesOf_defined {ds : List IndexDecl} {is : List Index} {n : Nat}
    (numbered : ∀ (k : Nat) (f : Field), fields[k]? = some f → f.number = k)
    (ha : indexesOf owner fields n ds = .ok is) :
    (∀ (k : Nat) (i : Index), is[k]? = some i → i.number = n + k) ∧
      ∀ i ∈ is, ∀ g ∈ i.segments, g.Of fields := by
  induction ds generalizing n is with
  | nil =>
    cases ha
    exact ⟨nofun, nofun⟩
  | cons d ds ih =>
    obtain ⟨i, hi, ha⟩ := bind_eq_ok.1 ha
    obtain ⟨is, his, ⟨⟩⟩ := bind_eq_ok.1 ha
    obtain ⟨j, hj, ⟨⟩⟩ := bind_eq_ok.1 hi
    obtain ⟨hnumber, hsegments⟩ := Index.segments_of_declared numbered hj nofun
    obtain ⟨hnumbers, hall⟩ := ih his
    constructor
    · intro k x hx
      cases k with
      | zero =>
        cases hx
        exact hnumber
      | succ k =>
        rw [hnumbers k x hx]
        omega
    · exact List.forall_mem_cons.2 ⟨hsegments, hall⟩

namespace Table

theorem load_defined (valid : schema.Valid) (hl : t.load schema = .ok u) : u.Defined := by
  have hfields := load_eq_ok hl
  have numbered (k : Nat) (f : Field) (hf : u.fields[k]? = some f) : f.number = k := by
    rw [hfields, List.getElem?_map] at hf
    obtain ⟨d, hd, rfl⟩ := Option.map_eq_some_iff.1 hf
    exact valid.field_number hd
  obtain ⟨indexes, hindexes, ⟨⟩⟩ := bind_eq_ok.1 hl
  obtain ⟨hnumbers, hsegments⟩ := indexesOf_defined numbered hindexes
  refine ⟨numbered, fun k i hi => ?_, hsegments⟩
  rw [hnumbers k i hi, Nat.zero_add]

theorem Defined.addField (defined : t.Defined) {type : FieldType} {length : UInt32} {p : Properties}
    {f : Field} (ha : t.addField s name type length p = .ok (f, u)) : u.Defined := by
  obtain ⟨-, -, hf, rfl⟩ := addField_eq_ok ha
  refine ⟨?_, defined.indexes, fun i hi g hg => (defined.segments i hi g hg).append [f]⟩
  intro k x hx
  rw [List.getElem?_append] at hx
  split at hx
  · exact defined.fields k x hx
  · rw [List.getElem?_singleton] at hx
    split at hx
    · cases hx
      rw [hf]
      show t.fields.length = k
      omega
    · cases hx

theorem Defined.addIndex (defined : t.Defined) {kind : IndexKind}
    (ha : t.addIndex s name kind = .ok (i, u)) : u.Defined := by
  obtain ⟨hi, rfl⟩ := addIndex_eq_ok ha
  refine ⟨defined.fields, ?_, ?_⟩
  · intro k x hx
    rw [List.getElem?_append] at hx
    split at hx
    · exact defined.indexes k x hx
    · rw [List.getElem?_singleton] at hx
      split at hx
      · cases hx
        rw [hi]
        show t.indexes.length = k
        omega
      · cases hx
  · rw [List.forall_mem_append, List.forall_mem_singleton, hi]
    exact ⟨defined.segments, nofun⟩

theorem Defined.freeze (defined : t.Defined) {name : Option String} {binding : Option Binding} :
    Defined { t with indexes := t.indexes.map (·.freeze), name, binding } := by
  refine ⟨defined.fields, ?_, ?_⟩
  · intro k x hx
    obtain ⟨i, hi, rfl⟩ := Option.map_eq_some_iff.1 (List.getElem?_map .. ▸ hx)
    exact defined.indexes k i hi
  · intro x hx
    obtain ⟨i, hi, rfl⟩ := List.mem_map.1 hx
    exact defined.segments i hi

theorem openStored_defined {m : OpenMode} (he : s.engine = Host.engine)
    (registered : h.server.Registered) (valid : h.Images (·.schema.Valid))
    (opened : t.openStored s name m h = (.ok (), u, h')) : u.Defined := by
  obtain ⟨c, id, _, loaded, hopen, hread, hload, rfl⟩ := openStored_ok he opened
  have hnext : h.next (.call (.openTable c (s.addressOf t.path name) m)) = h' :=
    congrArg Prod.snd hopen
  have valid' : h'.Images (·.schema.Valid) := hnext ▸ valid.valid_next registered (.call _)
  obtain ⟨i, hi, rfl⟩ := Host.readSchema_eq_ok hread
  have loaded := load_defined (valid'.image hi) hload
  exact ⟨loaded.fields, loaded.indexes, loaded.segments⟩

theorem Defined.yields (defined : t.Defined) (he : s.engine = Host.engine) {call : TableCall}
    (timely : call.Timely t) (registered : h.server.Registered)
    (valid : h.Images (·.schema.Valid)) (yields : t.Yields s h call u h') : u.Defined := by
  cases yields with
  | failed => exact defined
  | path => exact ⟨defined.fields, defined.indexes, defined.segments⟩
  | field added => exact defined.addField added
  | index added => exact defined.addIndex added
  | edited edited => exact defined.edit timely edited
  | @segment index field mode f u found edited =>
    have selected : t.select (.named field) = .ok f := found
    obtain ⟨k, hk⟩ := field_of_select selected
    have stands : f.Stands t := Numbered.stands defined.fields (List.mem_of_getElem? hk)
    have timely : (TableCall.editIndex index (.addSegment f mode)).Timely t := fun _ _ _ => stands
    exact defined.edit timely edited
  | created => exact defined.freeze
  | opened opened => exact openStored_defined he registered valid opened

theorem Defined.call (defined : t.Defined) (he : s.engine = Host.engine) {call : TableCall}
    (timely : call.Timely t) (registered : h.server.Registered)
    (valid : h.Images (·.schema.Valid)) : (t.call call s h).2.1.Defined :=
  defined.yields he timely registered valid (t.yields he call h)

theorem Built.defined (built : t.Built) : t.Defined := by
  induction built with
  | new => exact ⟨by simp [Numbered], by simp, by simp⟩
  | called built call own hosted config disk es ih =>
    have registered := Host.registered_run config disk es
    exact ih.call hosted (own.timely ih.fields) registered (Host.valid_run config disk es)
  | @closed t s built hosted h ih =>
    rw [t.close_eq hosted]
    exact ⟨ih.fields, ih.indexes, ih.segments⟩

end Table

theorem Table.Built.calls (built : t.Built) (hosted : s.engine = Host.engine)
    (config : EngineConfig) (disk : Disk) (es : List Event) {calls : List TableCall}
    (own : ∀ call ∈ calls, ∀ u, call.OwnFields u) :
    let h := (Host.start config disk).run es
    Built (calls.foldl (fun t call => (t.call call s h).2.1) t) := by
  induction calls generalizing t with
  | nil => exact built
  | cons call calls ih =>
    obtain ⟨first, rest⟩ := List.forall_mem_cons.1 own
    exact ih (built.called call (first t) hosted config disk es) rest

/-! What is loaded from the schema of a table. -/

theorem Schema.Valid.name_injective (valid : schema.Valid) {k n : Nat} {d e : FieldDecl}
    (hd : schema.fields[k]? = some d) (he : schema.fields[n]? = some e) (heq : d.name = e.name) :
    k = n := by
  have hk := Schema.position?_of_validate valid.valid hd
  rw [heq, Schema.position?_of_validate valid.valid he] at hk
  exact (Option.some.inj hk).symm

namespace Table

theorem schema_fields {k : Nat} {f : Field} (hf : t.fields[k]? = some f) :
    t.schema.fields[k]? = some f.toDecl := by
  have hmap : t.schema.fields[k]? = t.fields[k]?.map (·.toDecl) := List.getElem?_map ..
  rw [hmap, hf]
  rfl

variable (defined : t.Defined) (valid : t.schema.Valid)

include defined valid

theorem Defined.fields_inTable (owner : TableId) :
    t.schema.fields.map (Field.ofDecl owner) = t.fields.map (·.inTable owner) := by
  have hmap : t.schema.fields = t.fields.map (·.toDecl) := rfl
  rw [hmap, List.map_map]
  apply List.map_congr_left
  intro f hf
  obtain ⟨k, hk⟩ := List.mem_iff_getElem?.1 hf
  have hnumber : (UInt64.ofNat f.number).toNat = f.number :=
    (valid.field_number (schema_fields hk)).trans (defined.fields k f hk).symm
  simp only [Function.comp_apply, Field.toDecl, Field.ofDecl, Field.inTable, hnumber]

theorem Defined.find?_field {g : Segment} (of : g.Of t.fields) (owner : TableId) :
    ∃ f, (t.fields.map (·.inTable owner)).find? (·.name == g.field) = some f ∧
      f.table = owner ∧ f.name = g.field ∧ f.number = g.number ∧ f.length = g.length := by
  obtain ⟨f, hf, hname, hlength⟩ := of
  refine ⟨f.inTable owner, ?_, rfl, hname, defined.fields _ f hf, hlength⟩
  rw [List.find?_map]
  cases hfound : t.fields.find? ((·.name == g.field) ∘ (·.inTable owner)) with
  | none =>
    have hnot := List.find?_eq_none.1 hfound f (List.mem_of_getElem? hf)
    simp [Field.inTable, hname] at hnot
  | some x =>
    have hx := List.find?_some hfound
    obtain ⟨k, hk⟩ := List.mem_iff_getElem?.1 (List.mem_of_find?_eq_some hfound)
    have hxname : x.name = f.name := by
      simpa [Field.inTable, hname] using hx
    obtain rfl := valid.name_injective (schema_fields hk) (schema_fields hf) hxname
    rw [hk] at hf
    cases hf
    rfl

theorem Defined.addDeclared_segments {gs : List Segment} (of : ∀ g ∈ gs, g.Of t.fields)
    (mutable : i.frozen = false) :
    (gs.map fun g => ⟨g.field, g.mode⟩).foldlM
        (Index.addDeclared (t.fields.map (·.inTable i.table))) i =
      .ok { i with segments := i.segments ++ gs } := by
  induction gs generalizing i with
  | nil =>
    rw [List.append_nil]
    rfl
  | cons g gs ih =>
    obtain ⟨hg, hgs⟩ := List.forall_mem_cons.1 of
    obtain ⟨f, hfound, htable, hname, hnumber, hlength⟩ := defined.find?_field valid hg i.table
    have hadd : Index.addDeclared (t.fields.map (·.inTable i.table)) i ⟨g.field, g.mode⟩ =
        .ok { i with segments := i.segments ++ [g] } := by
      rw [Index.addDeclared_found mutable hfound htable, hname, hnumber, hlength]
    have hrest := ih (i := { i with segments := i.segments ++ [g] }) hgs mutable
    rw [List.append_assoc, List.singleton_append] at hrest
    rw [List.map_cons, List.foldlM_cons, hadd]
    exact hrest

theorem Defined.ofDecl_toDecl (of : ∀ g ∈ i.segments, g.Of t.fields) (owner : TableId) :
    Index.ofDecl owner i.number i.toDecl (t.fields.map (·.inTable owner)) =
      .ok (i.freeze.inTable owner) := by
  let empty : Index := { i with table := owner, segments := [], frozen := false }
  have hsegments := defined.addDeclared_segments valid (i := empty) of rfl
  exact bind_eq_ok.2 ⟨_, hsegments, rfl⟩

theorem Defined.indexesOf_toDecl {is : List Index} {n : Nat}
    (numbers : ∀ (k : Nat) (i : Index), is[k]? = some i → i.number = n + k)
    (of : ∀ i ∈ is, ∀ g ∈ i.segments, g.Of t.fields) (owner : TableId) :
    indexesOf owner (t.fields.map (·.inTable owner)) n (is.map (·.toDecl)) =
      .ok (is.map fun i => i.freeze.inTable owner) := by
  induction is generalizing n with
  | nil => rfl
  | cons i is ih =>
    obtain ⟨hi, his⟩ := List.forall_mem_cons.1 of
    have hnumber : i.number = n := numbers 0 i rfl
    have hlater (k : Nat) (j : Index) (hj : is[k]? = some j) : j.number = n + 1 + k := by
      rw [numbers (k + 1) j hj]
      omega
    have hfirst := defined.ofDecl_toDecl valid hi owner
    rw [hnumber] at hfirst
    exact bind_eq_ok.2 ⟨_, hfirst, bind_eq_ok.2 ⟨_, ih hlater his, rfl⟩⟩

theorem Defined.load_schema (u : Table) : ∃ numbers, u.load t.schema = .ok { u with
    fields := t.fields.map (·.inTable u.id)
    indexes := t.indexes.map fun i => i.freeze.inTable u.id
    numbers } := by
  have numbers (k : Nat) (i : Index) (hi : t.indexes[k]? = some i) : i.number = 0 + k := by
    rw [Nat.zero_add, defined.indexes k i hi]
  have hindexes := defined.indexesOf_toDecl valid numbers defined.segments u.id
  rw [← defined.fields_inTable valid u.id] at hindexes ⊢
  exact ⟨_, bind_eq_ok.2 ⟨_, hindexes, rfl⟩⟩

end Table
end Isam
