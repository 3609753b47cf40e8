import Isam.Proofs.Client.Setting
import Isam.Proofs.Server.Uniqueness
namespace Isam

variable {f : Field} {v : Value} {t t' : Table} {s : Session Host} {r : Record}

theorem FieldType.isNull_blank {type : FieldType} (known : type.isKnown = true) :
    type.blank.isNull = false := by
  cases type with
  | unknown code => cases known
  | _ => rfl

theorem FieldType.isKnown_of_checkLength {type : FieldType} {length : UInt32}
    (h : type.checkLength length = .ok ()) : type.isKnown = true := by
  unfold checkLength at h
  split at h
  · assumption
  · cases h

namespace Field

def Added (f : Field) : Prop := ∃ (t : Table) (s : Session Host) (g : Field) (t' : Table),
  t.addField s f.name f.type f.length f.properties = .ok (g, t')

def RefusesDefault (f : Field) : Prop :=
  f.properties.default? = some .null ∧ f.allowsNull = false

theorem takes_iff (stores : f.Stores v) :
    f.Takes v ↔ ¬ (v.isNull = true ∧ f.allowsNull = false) := by
  cases hnull : v.isNull <;> cases hallows : f.allowsNull <;> simp [Takes, hnull, hallows, stores]

theorem Added.known (added : f.Added) : f.type.isKnown = true := by
  obtain ⟨t, s, g, t', ha⟩ := added
  obtain ⟨⟨⟩, -, ha⟩ := bind_eq_ok.1 ha
  dsimp only at ha
  split at ha
  · obtain ⟨_, ⟨⟩, _⟩ := bind_eq_ok.1 ha
  · split at ha
    · obtain ⟨_, ⟨⟩, _⟩ := bind_eq_ok.1 ha
    · obtain ⟨⟨⟩, hlength, ha⟩ := bind_eq_ok.1 ha
      exact FieldType.isKnown_of_checkLength hlength

theorem Added.defaultStored (added : f.Added) : f.toDecl.DefaultStored := by
  obtain ⟨t, s, g, t', ha⟩ := added
  exact Table.defaultStored_of_checkDefault (Table.addField_eq_ok ha).2.1

theorem Added.stores_initial (added : f.Added) : f.Stores f.initialValue := by
  rcases f.initialValue_cases with stores | hdefault
  · exact stores
  · exact added.defaultStored _ hdefault

theorem Added.initial_null (added : f.Added) :
    (f.initialValue.isNull = true ∧ f.allowsNull = false) ↔ f.RefusesDefault := by
  have hblank := FieldType.isNull_blank added.known
  unfold RefusesDefault initialValue
  split
  · rename_i v hdefault
    rw [hdefault, Option.some.injEq]
    cases v <;> simp [Value.isNull]
  · rename_i hdefault
    cases f.allowsNull <;> simp [hdefault, hblank]

theorem Added.takes_initial (added : f.Added) : f.Takes f.initialValue ↔ ¬ f.RefusesDefault := by
  rw [takes_iff added.stores_initial, added.initial_null]

end Field

theorem Table.added_of_addField {name : String} {type : FieldType} {length : UInt32}
    {p : Properties} (ha : t.addField s name type length p = .ok (f, t')) : f.Added := by
  obtain ⟨-, -, rfl, -⟩ := addField_eq_ok ha
  exact ⟨t, s, _, t', ha⟩

namespace Record

def Fresh (r : Record) (t : Table) (s : Session Host) : Prop :=
  ofTable t s = .ok r ∨ ∃ r', clear r' t s = .ok r

theorem Fresh.bound (fresh : r.Fresh t s) : r.checkBound t s = .ok () := by
  rcases fresh with hnew | ⟨r', hclear⟩
  · obtain ⟨handle, hhandle, ⟨⟩⟩ := bind_eq_ok.1 hnew
    simp [checkBound, hhandle]
  · obtain ⟨⟨⟩, bound, ⟨⟩⟩ := bind_eq_ok.1 hclear
    exact bound

theorem Fresh.values (fresh : r.Fresh t s) : r.values = t.initialValues := by
  rcases fresh with hnew | ⟨r', hclear⟩
  · obtain ⟨handle, -, ⟨⟩⟩ := bind_eq_ok.1 hnew
    rfl
  · obtain ⟨⟨⟩, -, ⟨⟩⟩ := bind_eq_ok.1 hclear
    rfl

end Record

theorem Schema.checkRow_initial {sc : Schema} (fields : sc.fields = t.fields.map (·.toDecl)) :
    sc.checkRow t.initialValues = .ok () ↔ ∀ f ∈ t.fields, f.Takes f.initialValue := by
  rw [checkRow_eq_ok, Conforms, fields, Table.initialValues, List.length_map, List.length_map,
    List.zip_map', List.forall_mem_map]
  simp only [true_and, Field.check_eq_ok]

def Error.OfRow (e : Error) : Prop := e.kind = .typeMismatch ∨ e.kind = .schemaMismatch

variable {e : Error}

namespace Server

variable {u : Server} {x : Handle} {g : OpenFile} {id : HandleId} {target : Option RowId} {row : Row}

theorem not_ofRow_of_opened (hr : u.opened id = .error e) : ¬ e.OfRow := by
  unfold opened at hr
  split at hr
  · cases hr
    rintro (h | h) <;> cases h
  · split at hr
    · cases hr
    · cases hr
      rintro (h | h) <;> cases h

theorem not_ofRow_of_checkWritable (hr : u.checkWritable x g = .error e) : ¬ e.OfRow := by
  unfold checkWritable at hr
  split at hr
  · cases hr
    rintro (h | h) <;> cases h
  · have hr : u.checkSessionLock x.connection = .error e := hr
    unfold checkSessionLock at hr
    split at hr
    · cases hr
      rintro (h | h) <;> cases h
    · cases hr

theorem not_ofRow_of_checkTarget (hr : u.checkTarget x g target = .error e) : ¬ e.OfRow := by
  cases target with
  | none => cases hr
  | some k =>
    simp only [checkTarget] at hr
    split at hr
    · cases hr
      rintro (h | h) <;> cases h
    · have hr : u.checkRowLock x.connection x.file k = .error e := hr
      unfold checkRowLock at hr
      split at hr
      · cases hr
        rintro (h | h) <;> cases h
      · cases hr

theorem not_ofRow_of_checkUnique {i : Image} (hr : checkUnique i row target = .error e) :
    ¬ e.OfRow := by
  unfold checkUnique at hr
  split at hr
  · cases hr
    rintro (h | h) <;> cases h
  · cases hr

theorem not_ofRow_of_checkRoom {i : Image} (hr : checkRoom i target = .error e) : ¬ e.OfRow := by
  rcases checkRoom_cases i target with hroom | ⟨-, -, hroom⟩
  · rw [hroom] at hr
    cases hr
  · rw [hroom] at hr
    cases hr
    rintro (h | h) <;> cases h

theorem checkWrite_ofRow (ofRow : e.OfRow) (hc : u.checkWrite id target row = .error e) :
    ∃ x g, u.opened id = .ok (x, g) ∧ g.image.schema.checkRow row = .error e := by
  rcases bind_eq_error.1 hc with hopened | ⟨⟨x, g⟩, hopened, hc⟩
  · exact absurd ofRow (not_ofRow_of_opened hopened)
  · rcases bind_eq_error.1 hc with hwritable | ⟨⟨⟩, -, hc⟩
    · exact absurd ofRow (not_ofRow_of_checkWritable hwritable)
    · rcases bind_eq_error.1 hc with hrow | ⟨⟨⟩, -, hc⟩
      · exact ⟨x, g, hopened, hrow⟩
      · rcases bind_eq_error.1 hc with htarget | ⟨⟨⟩, -, hc⟩
        · exact absurd ofRow (not_ofRow_of_checkTarget htarget)
        · rcases bind_eq_error.1 hc with hunique | ⟨⟨⟩, -, hc⟩
          · exact absurd ofRow (not_ofRow_of_checkUnique hunique)
          · rcases bind_eq_error.1 hc with hroom | ⟨⟨⟩, -, ⟨⟩⟩
            exact absurd ofRow (not_ofRow_of_checkRoom hroom)

end Server

theorem Host.writeRow_ofRow {h : Host} {id : HandleId} {target : Option RowId} {row : Row}
    (ofRow : e.OfRow) (hw : (h.writeRow id target row).1 = .error e) :
    ∃ i, h.image? id = some i ∧ i.schema.checkRow row = .error e := by
  cases hc : h.server.checkWrite id target row with
  | error e' =>
    rw [writeRow_of_refused hc] at hw
    cases hw
    obtain ⟨x, g, hopened, hrow⟩ := Server.checkWrite_ofRow ofRow hc
    exact ⟨g.image, image?_eq_some.2 ⟨x, g, hopened, rfl⟩, hrow⟩
  | ok p =>
    obtain ⟨x, g⟩ := p
    rw [writeRow_of_checked hc] at hw
    split at hw
    · cases hw
    · cases hw
      rcases ofRow with h | h <;> cases h

theorem Record.write_ofRow {h : Host} (hosted : s.engine = Host.engine) (ofRow : e.OfRow)
    (hw : (r.write t s h).1 = .error e) :
    ∃ i, h.image? r.handle = some i ∧ i.schema.checkRow r.values = .error e := by
  unfold write at hw
  split at hw
  · rename_i e' hbound
    cases hw
    unfold checkBound at hbound
    split at hbound
    · split at hbound
      · cases hbound
      · cases hbound
        rcases ofRow with h | h <;> cases h
    · cases hbound
      rcases ofRow with h | h <;> cases h
  · have hcall : s.engine.writeRow r.handle r.target? r.values h =
        h.writeRow r.handle r.target? r.values := by
      rw [hosted]
      rfl
    rw [hcall] at hw
    split at hw
    · rename_i e' h' hrow
      cases hw
      exact Host.writeRow_ofRow ofRow (congrArg Prod.fst hrow)
    · cases hw

namespace Workspace

/-- The fields that a table adds start with values that they can store. A record that was just made or
cleared has a row that its engine takes, and no write of it fails for the row, if no field has a null
for its default that it does not allow: that is the one thing which is not asked of defaults. -/
theorem fresh_rows_written (config : EngineConfig) (disk : Disk) (xs : List Step) :
    (∀ (t : Table) (s : Session Host) name type length p f t',
      t.addField s name type length p = .ok (f, t') → f.Stores f.initialValue ∧
        (f.initialValue.isNull = true ∧ f.allowsNull = false ↔ f.RefusesDefault)) ∧
    let w := (start config disk).steps xs
    ∀ n t s, w.table? n = some (t, s) → (∀ f ∈ t.fields, f.Added) → ∀ r : Record, r.Fresh t s →
      (∀ i, w.state.image? r.handle = some i →
        (i.schema.checkRow r.values = .ok () ↔ ∀ f ∈ t.fields, ¬ f.RefusesDefault)) ∧
      ((∀ f ∈ t.fields, ¬ f.RefusesDefault) → ∀ e, (r.write t s w.state).1 = .error e →
        e.kind ≠ .typeMismatch ∧ e.kind ≠ .schemaMismatch) := by
  constructor
  · intro t s name type length p f t' ha
    have added := Table.added_of_addField ha
    exact ⟨added.stores_initial, added.initial_null⟩
  · intro w n t s found added r fresh
    have matched : w.Matched := matched_steps config disk xs
    obtain ⟨o, -, hs⟩ := table?_eq_some.1 found
    have accepts (i : Image) (hi : w.state.image? r.handle = some i) :
        i.schema.checkRow r.values = .ok () ↔ ∀ f ∈ t.fields, ¬ f.RefusesDefault := by
      rw [fresh.values, Schema.checkRow_initial (matched.buffered.matching found fresh.bound hi)]
      exact forall₂_congr fun f hf => (added f hf).takes_initial
    refine ⟨accepts, fun allowed e hw => not_or.1 fun ofRow => ?_⟩
    obtain ⟨i, hi, hrow⟩ := Record.write_ofRow (matched.hosted hs) ofRow hw
    rw [(accepts i hi).2 allowed] at hrow
    cases hrow

def required (default : Option Value) : Properties :=
  { allowNull := some (.bool false), default := default.map .value }

def oneRequired (default : Option Value) : List Step :=
  [.act (.newSession "s" {}), .act (.session "s" (.logon "FAIRCOMS" "" "")),
    .act (.newTable "t" "s"), .act (.table "t" (.addField "id" .uInteger 4 (required default))),
    .act (.table "t" (.create "t" .normal))]

theorem required_added {default : Option Value} (hdefault : default = none ∨ default = some .null) :
    Field.Added ⟨0, 0, "id", .uInteger, 4, required default⟩ := by
  refine ⟨{ id := 0 }, Session.ofConfig Host.engine {}, ?_⟩
  rcases hdefault with rfl | rfl <;> exact ⟨_, _, rfl⟩

theorem oneRequired_written : ∃ t s r,
    ((start {} .empty).steps (oneRequired none)).table? "t" = some (t, s) ∧
    (∀ f ∈ t.fields, f.Added) ∧ Record.Fresh r t s ∧ (∀ f ∈ t.fields, ¬ f.RefusesDefault) ∧
    ∀ e, (r.write t s ((start {} .empty).steps (oneRequired none)).state).1 = .error e →
      e.kind ≠ .typeMismatch ∧ e.kind ≠ .schemaMismatch := by
  have hview : (((start {} .empty).steps (oneRequired none)).table? "t").map (fun x =>
      (x.1.fields, (Record.ofTable x.1 x.2).isOk)) =
      some ([⟨0, 0, "id", .uInteger, 4, required none⟩], true) := by decide +kernel
  obtain ⟨⟨t, s⟩, found, heq⟩ := Option.map_eq_some_iff.1 hview
  obtain ⟨hfields, hrecord⟩ := Prod.mk.inj heq
  obtain ⟨r, hr⟩ := exists_of_isOk hrecord
  have fresh : r.Fresh t s := .inl hr
  have added : ∀ f ∈ t.fields, f.Added := by
    rw [hfields]
    exact List.forall_mem_singleton.2 (required_added (.inl rfl))
  have allowed : ∀ f ∈ t.fields, ¬ f.RefusesDefault := by
    rw [hfields]
    exact List.forall_mem_singleton.2 nofun
  obtain ⟨-, written⟩ :=
    (fresh_rows_written {} .empty (oneRequired none)).2 "t" t s found added r fresh
  exact ⟨t, s, r, found, added, fresh, allowed, written allowed⟩

theorem not_all_fresh_rows_written :
    ¬ ∀ (config : EngineConfig) (disk : Disk) (xs : List Step) n t s (r : Record),
      ((start config disk).steps xs).table? n = some (t, s) → (∀ f ∈ t.fields, f.Added) →
      r.Fresh t s → ∀ e, (r.write t s ((start config disk).steps xs).state).1 = .error e →
        e.kind ≠ .typeMismatch := by
  intro written
  let w := (start {} .empty).steps (oneRequired (some .null))
  have hview : (w.table? "t").map (fun x => (x.1.fields, (Record.ofTable x.1 x.2).map fun r =>
      (r.write x.1 x.2 w.state).1.mapError Error.kind)) =
      some ([⟨0, 0, "id", .uInteger, 4, required (some .null)⟩],
        .ok (.error .typeMismatch)) := by
    decide +kernel
  obtain ⟨⟨t, s⟩, found, heq⟩ := Option.map_eq_some_iff.1 hview
  obtain ⟨hfields, hrecord⟩ := Prod.mk.inj heq
  have added : ∀ f ∈ t.fields, f.Added := by
    rw [hfields]
    exact List.forall_mem_singleton.2 (required_added (.inr rfl))
  cases hr : Record.ofTable t s with
  | error e =>
    rw [hr] at hrecord
    cases hrecord
  | ok r =>
    rw [hr] at hrecord
    cases hwrite : (r.write t s w.state).1 with
    | ok id =>
      rw [Except.map, hwrite] at hrecord
      cases hrecord
    | error e =>
      rw [Except.map, hwrite] at hrecord
      have hkind : e.kind = .typeMismatch := Except.error.inj (Except.ok.inj hrecord)
      exact written {} .empty _ "t" t s r found added (.inl hr) e hwrite hkind

end Workspace
end Isam
