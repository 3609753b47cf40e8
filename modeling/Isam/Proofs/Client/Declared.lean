import Isam.Proofs.Client.Fresh
import Isam.Proofs.Client.Segments
namespace Isam

open FiniteMap

variable {w : Workspace Host} {n o name : String} {t u : Table} {s : Session Host} {h h' : Host}
  {f : Field} {i j : Index} {k : Nat} {sc : Schema}

structure FieldDecl.Sound (d : FieldDecl) : Prop where
  known : d.type.isKnown = true
  length : d.type.checkLength d.length = .ok ()
  default : d.DefaultStored

namespace Table

theorem addField_checked {type : FieldType} {length : UInt32} {p : Properties}
    (ha : t.addField s name type length p = .ok (f, u)) :
    name ≠ "" ∧ get? t.numbers name = none ∧ f.toDecl.Sound := by
  obtain ⟨-, checked, rfl, -⟩ := addField_eq_ok ha
  obtain ⟨⟨⟩, -, ha⟩ := bind_eq_ok.1 ha
  dsimp only at ha
  split at ha
  · obtain ⟨_, ⟨⟩, _⟩ := bind_eq_ok.1 ha
  · rename_i hname
    split at ha
    · obtain ⟨_, ⟨⟩, _⟩ := bind_eq_ok.1 ha
    · rename_i hfresh
      obtain ⟨⟨⟩, hlength, -⟩ := bind_eq_ok.1 ha
      exact ⟨hname, by simpa [contains] using hfresh, FieldType.isKnown_of_checkLength hlength,
        hlength, defaultStored_of_checkDefault checked⟩

theorem addIndex_checked {kind : IndexKind} (ha : t.addIndex s name kind = .ok (i, u)) :
    ∀ j ∈ t.indexes, j.name ≠ name := by
  obtain ⟨⟨⟩, -, ha⟩ := bind_eq_ok.1 ha
  dsimp only at ha
  split at ha
  · obtain ⟨_, ⟨⟩, _⟩ := bind_eq_ok.1 ha
  · split at ha
    · obtain ⟨_, ⟨⟩, _⟩ := bind_eq_ok.1 ha
    · rename_i hfresh
      simpa using hfresh

theorem segments_of_checkCreate {c : ConnectionId} (hc : t.checkCreate s name = .ok c) :
    ∀ i ∈ t.indexes, i.segments ≠ [] := by
  obtain ⟨⟨⟩, -, hc⟩ := bind_eq_ok.1 hc
  dsimp only at hc
  split at hc
  · obtain ⟨_, ⟨⟩, _⟩ := bind_eq_ok.1 hc
  · split at hc
    · cases hc
    · rename_i hfull
      simpa using hfull

theorem map_name_replaceIndex (j : Index) (is : List Index) :
    (replaceIndex j is).map (·.name) = is.map (·.name) := by
  induction is with
  | nil => rfl
  | cons i is ih =>
    rw [replaceIndex]
    split
    · rename_i hname
      simp [beq_iff_eq.1 hname]
    · rw [List.map_cons, List.map_cons, ih]

structure Named (t : Table) : Prop where
  names : ∀ f ∈ t.fields, f.name ≠ ""
  numbers : ∀ name k, get? t.numbers name = some k ↔ ∃ f, t.fields[k]? = some f ∧ f.name = name
  indexes : (t.indexes.map (·.name)).Nodup

theorem named_new (id : TableId) : Named { id } :=
  ⟨fun _ hf => absurd hf List.not_mem_nil, by simp [get?_nil], List.nodup_nil⟩

theorem Named.distinct (named : t.Named) : (t.fields.map (·.name)).Nodup :=
  nodup_of_positions fun k f hf => (named.numbers f.name k).2 ⟨f, hf, rfl⟩

theorem Named.addField (named : t.Named) {type : FieldType} {length : UInt32} {p : Properties}
    (ha : t.addField s name type length p = .ok (f, u)) : u.Named := by
  obtain ⟨hname, fresh, -⟩ := addField_checked ha
  obtain ⟨-, -, hf, rfl⟩ := addField_eq_ok ha
  have hfname : f.name = name := by rw [hf]
  refine ⟨?_, fun other k => ?_, named.indexes⟩
  · rw [List.forall_mem_append, List.forall_mem_singleton, hfname]
    exact ⟨named.names, hname⟩
  · have stands (g : Field) : (t.fields ++ [f])[k]? = some g ↔
        t.fields[k]? = some g ∨ k = t.fields.length ∧ g = f := by
      grind
    simp only [stands, or_and_right, exists_or, ← named.numbers, and_assoc, exists_and_left,
      exists_eq_left, hfname, get?_set]
    split
    · rename_i heq
      rw [← heq, fresh]
      simp [eq_comm]
    · rename_i hne
      simp [hne]

theorem Named.addIndex (named : t.Named) {kind : IndexKind}
    (ha : t.addIndex s name kind = .ok (i, u)) : u.Named := by
  have fresh := addIndex_checked ha
  obtain ⟨hi, rfl⟩ := addIndex_eq_ok ha
  refine ⟨named.names, named.numbers, ?_⟩
  rw [List.map_append, List.nodup_append]
  refine ⟨named.indexes, List.nodup_singleton _, ?_⟩
  simpa [hi] using fresh

theorem Named.edit (named : t.Named) {edit : IndexEdit}
    (ha : t.editIndex name edit.apply = .ok u) : u.Named := by
  obtain ⟨i, j, -, -, rfl⟩ := editIndex_eq_ok ha
  exact ⟨named.names, named.numbers, (map_name_replaceIndex j t.indexes).symm ▸ named.indexes⟩

theorem get?_numbers (fs : List Field) (m : FiniteMap String Nat) (name : String) :
    get? (fs.foldl (fun m f => set m f.name f.number) m) name =
      ((fs.reverse.find? (·.name == name)).map (·.number)).or (get? m name) := by
  induction fs generalizing m with
  | nil => rfl
  | cons f fs ih =>
    rw [List.foldl_cons, ih, get?_set, List.reverse_cons, List.find?_append, List.find?_singleton]
    by_cases hname : f.name = name <;> cases (fs.reverse.find? (·.name == name)) <;> simp [hname]

theorem load_numbers (hl : t.load sc = .ok u) (name : String) :
    get? u.numbers name = sc.numbered.position? name := by
  obtain ⟨indexes, -, ⟨⟩⟩ := bind_eq_ok.1 hl
  rw [get?_numbers, Schema.position?_of_last, get?_nil, Option.or_none, ← List.map_reverse,
    List.find?_map, Option.map_map]
  rfl

theorem load_named (valid : sc.Valid) (hl : t.load sc = .ok u) : u.Named := by
  have wf : sc.WellFormed := Schema.wellFormed_iff.1 (valid.numbered.symm ▸ valid.valid)
  have fields := load_eq_ok hl
  refine ⟨?_, fun name k => ?_, ?_⟩
  · rw [fields, List.forall_mem_map]
    exact wf.named
  · rw [load_numbers hl, wf.position?_eq_some, fields]
    simp [List.getElem?_map, Field.ofDecl]
  · have hnames := congrArg (List.map (·.name)) (load_indexes hl).1
    rw [List.map_map] at hnames
    exact hnames ▸ wf.indexNames

theorem Named.yields (named : t.Named) {call : TableCall} (registered : h.server.Registered)
    (valid : h.Images (·.schema.Valid)) (yields : t.Yields s h call u h') : u.Named := by
  cases yields with
  | failed => exact named
  | path => exact ⟨named.names, named.numbers, named.indexes⟩
  | field added => exact named.addField added
  | index added => exact named.addIndex added
  | edited edited | segment _ edited => exact named.edit edited
  | created =>
    refine ⟨named.names, named.numbers, ?_⟩
    rw [List.map_map]
    exact named.indexes
  | @opened name m c id h' schema loaded _ asked read load =>
    obtain ⟨j, hj, rfl⟩ := Host.readSchema_eq_ok read
    have hnext : h.next (.call (.openTable c (s.addressOf t.path name) m)) = h' :=
      congrArg Prod.snd asked
    have valid' : h'.Images (·.schema.Valid) := hnext ▸ valid.valid_next registered (.call _)
    have after := load_named (valid'.image hj) load
    exact ⟨after.names, after.numbers, after.indexes⟩

/-- Fields and indexes stand at their numbers and are told apart by their names, which the table finds
its fields by. The fields are of known types, with lengths and defaults for them, and the segments of
indexes are of them. -/
structure Sound (t : Table) : Prop where
  fieldNumbers : t.Numbered
  fieldNames : ∀ f ∈ t.fields, f.name ≠ ""
  distinctFields : (t.fields.map (·.name)).Nodup
  numbers : ∀ name k, get? t.numbers name = some k ↔ ∃ f, t.fields[k]? = some f ∧ f.name = name
  fields : ∀ f ∈ t.fields, f.toDecl.Sound
  indexNumbers : ∀ (k : Nat) (i : Index), t.indexes[k]? = some i → i.number = k
  distinctIndexes : (t.indexes.map (·.name)).Nodup
  segments : ∀ i ∈ t.indexes, ∀ g ∈ i.segments, g.Of t.fields

theorem Sound.wellFormed (sound : t.Sound) (inhabited : t.fields ≠ [])
    (full : ∀ i ∈ t.indexes, i.segments ≠ []) (size : t.fields.length ≤ UInt64.size) :
    t.schema.WellFormed where
  inhabited := by
    show t.fields.map _ ≠ []
    simpa using inhabited
  numbers k d hd := by
    obtain ⟨f, hf, rfl⟩ := Option.map_eq_some_iff.1 (List.getElem?_map .. ▸ hd)
    have hk := (List.getElem?_eq_some_iff.1 hf).1
    show (UInt64.ofNat f.number).toNat = k
    rw [sound.fieldNumbers k f hf]
    exact UInt64.toNat_ofNat_of_lt' (Nat.lt_of_lt_of_le hk size)
  named := List.forall_mem_map.2 sound.fieldNames
  fieldNames := by
    show ((t.fields.map (·.toDecl)).map (·.name)).Nodup
    rw [List.map_map]
    exact sound.distinctFields
  indexNames := by
    show ((t.indexes.map (·.toDecl)).map (·.name)).Nodup
    rw [List.map_map]
    exact sound.distinctIndexes
  segments := by
    refine List.forall_mem_map.2 fun i hi => ⟨?_, List.forall_mem_map.2 fun g hg => ?_⟩
    · simpa [Index.toDecl] using full i hi
    · obtain ⟨f, hf, hname, -⟩ := sound.segments i hi g hg
      exact ⟨f.toDecl, List.mem_map_of_mem (List.mem_of_getElem? hf), hname⟩

theorem Sound.validate (sound : t.Sound) (full : ∀ i ∈ t.indexes, i.segments ≠ [])
    (size : t.fields.length ≤ UInt64.size) :
    t.schema.numbered.validate = if t.fields = [] then .error .noFields else .ok () := by
  split
  · rename_i hempty
    have hfields : t.schema.numbered.fields = t.fields.map (·.toDecl) := rfl
    rw [Schema.validate, hfields, hempty]
    rfl
  · rename_i inhabited
    exact Schema.wellFormed_iff.2 (sound.wellFormed inhabited full size)

end Table

def Step.ThroughTables : Step → Prop
  | .act (.table _ (.editIndex _ (.addSegment ..))) => False
  | .call (.createTable ..) => False
  | _ => True

namespace Workspace

theorem timely_of_throughTables {y : Step} (through : y.ThroughTables) : w.Timely y := by
  cases y with
  | call => trivial
  | act a =>
    cases a with
    | table m call =>
      intro o t _
      cases call with
      | editIndex name edit =>
        cases edit with
        | addSegment => exact through.elim
        | allowDuplicates | allowNullKeys => trivial
      | _ => trivial
    | _ => trivial

theorem eachField_of_throughTables {P : FieldDecl → Prop} {y : Step} (through : y.ThroughTables) :
    y.EachField P := by
  cases y with
  | act => trivial
  | call q =>
    cases q with
    | createTable => exact through.elim
    | _ => trivial

theorem named_steps (config : EngineConfig) (disk : Disk) (xs : List Step) :
    ∀ n o t, get? ((start config disk).steps xs).tables n = some (o, t) → t.Named := by
  have each (w : Workspace Host) (y : Step) (_ : True)
      (kept : w.Matched ∧ ∀ n o t, get? w.tables n = some (o, t) → t.Named) :
      (w.step y).Matched ∧ ∀ n o t, get? (w.step y).tables n = some (o, t) → t.Named := by
    obtain ⟨matched, named⟩ := kept
    refine ⟨matched.step y, tables_step matched.toStanding named Table.named_new ?_ ?_⟩
    · exact fun t before => ⟨before.names, before.numbers, before.indexes⟩
    · intro n o t s call _ _ hosted before
      exact before.yields matched.sane.registered matched.valid (t.yields hosted call w.state)
  exact (steps_keep each (fun _ _ => trivial) ⟨matched_steps config disk [], nofun⟩).2

theorem sound_steps (config : EngineConfig) {disk : Disk} (empty : ∀ l, disk.bytes? l = none)
    {xs : List Step} (through : ∀ x ∈ xs, x.ThroughTables)
    (entry : get? ((start config disk).steps xs).tables n = some (o, t)) : t.Sound := by
  have timely : Along step Timely (start config disk) xs :=
    .of_forall fun x hx w => timely_of_throughTables (through x hx)
  have defined := defined_steps config disk timely n o t entry
  have named := named_steps config disk xs n o t entry
  have adds (t : Table) (s : Session Host) name type length p f u
      (ha : t.addField s name type length p = .ok (f, u)) : f.toDecl.Sound :=
    (Table.addField_checked ha).2.2
  have fields := (eachField_steps adds config empty fun x hx =>
    eachField_of_throughTables (through x hx)).tables entry
  exact ⟨defined.fields, named.names, named.distinct, named.numbers, fields, defined.indexes,
    named.indexes, defined.segments⟩

/-- Where all definitions come through tables, those of a table are sound in every state. While it is
open all its indexes are frozen; one that is frozen is refused every change, and stays as it is until
the table is dropped or opened anew. The schema of a table that is to be created is valid unless it
has no fields. -/
theorem definitions_sound (config : EngineConfig) {disk : Disk} (empty : ∀ l, disk.bytes? l = none)
    {xs : List Step} (through : ∀ x ∈ xs, x.ThroughTables) :
    let w := (start config disk).steps xs
    ∀ n t s, w.table? n = some (t, s) → t.Sound ∧
      (t.isOpen s = true → ∀ i ∈ t.indexes, i.frozen = true) ∧
      (∀ i ∈ t.indexes, i.frozen = true →
        (∀ edit : IndexEdit, edit.apply i = .error (.frozenIndex i.name)) ∧
        ∀ ys, Along step (Keeps n) w ys → ∃ o u,
          get? (w.steps ys).tables n = some (o, u) ∧ u.indexes[i.number]? = some i) ∧
      ∀ name c, t.checkCreate s name = .ok c → t.fields.length ≤ UInt64.size →
        t.schema.numbered.validate = if t.fields = [] then .error .noFields else .ok () := by
  intro w n t s found
  obtain ⟨o, entry, hs⟩ := table?_eq_some.1 found
  have sound := sound_steps config empty through entry
  refine ⟨sound, fun isOpen => ?_, fun i hi frozen => ⟨?_, fun ys keeps => ?_⟩, ?_⟩
  · obtain ⟨b, live⟩ := Option.isSome_iff_exists.1 isOpen
    obtain ⟨hb, hc⟩ := Table.live?_eq_some.1 live
    have settled := settled_steps config disk xs n o t b entry hb
    exact (settled (connection?_eq_some.2 ⟨s, hs, hc⟩)).frozen
  · exact IndexEdit.apply_frozen frozen
  · have standing := (matched_steps config disk xs).toStanding
    obtain ⟨u, entry', retained⟩ := extends_steps standing keeps entry
    obtain ⟨k, hk⟩ := List.mem_iff_getElem?.1 hi
    rw [sound.indexNumbers k i hk]
    exact ⟨o, u, entry', retained.indexes hk frozen⟩
  · exact fun name c hc size => sound.validate (Table.segments_of_checkCreate hc) size

def extended : List Step := twoFields ++ [.act (.table "t" (.addIndex "by" .fixed)),
  .act (.table "t" (.addSegment "by" "b" {})), .act (.table "t" (.create "t" .normal)),
  .act (.close "t"), .act (.table "t" (.addField "c" .varChar 20 {}))]

def afterwards : List Step := [.act (.table "t" (.editIndex "by" (.allowDuplicates true))),
  .act (.session "s" .logout)]

theorem extended_sound : ∃ t s i o u, ((start {} .empty).steps extended).table? "t" = some (t, s) ∧
    t.Sound ∧ t.indexes = [i] ∧ i.frozen = true ∧
    get? (((start {} .empty).steps extended).steps afterwards).tables "t" = some (o, u) ∧
    u.indexes[i.number]? = some i ∧ t.fields.length = 3 ∧
    t.checkCreate s "u" = .ok 1 ∧ t.schema.numbered.validate = .ok () := by
  have hview : (((start {} .empty).steps extended).table? "t").map (fun x =>
      (x.1.fields.length, x.1.indexes.map (·.frozen), x.1.checkCreate x.2 "u")) =
      some (3, [true], .ok 1) := by decide +kernel
  obtain ⟨⟨t, s⟩, found, hview⟩ := Option.map_eq_some_iff.1 hview
  simp only [Prod.mk.injEq] at hview
  obtain ⟨hfields, hindexes, hcheck⟩ := hview
  obtain ⟨i, hi, frozen⟩ := List.map_eq_singleton_iff.1 hindexes
  have through : ∀ x ∈ extended, x.ThroughTables := by
    simp [extended, twoFields, opening, Step.ThroughTables]
  obtain ⟨sound, -, retained, creates⟩ :=
    definitions_sound {} (fun l => by cases l <;> rfl) through "t" t s found
  have keeps : Along step (Keeps "t") ((start {} .empty).steps extended) afterwards :=
    ⟨trivial, trivial, trivial⟩
  obtain ⟨o, u, entry, hu⟩ := (retained i (by simp [hi]) frozen).2 afterwards keeps
  have valid := creates "u" 1 hcheck (by rw [hfields]; decide)
  rw [if_neg (by rintro h; rw [h] at hfields; cases hfields)] at valid
  exact ⟨t, s, i, o, u, found, sound, hi, frozen, entry, hu, hfields, hcheck, valid⟩

end Workspace
end Isam
