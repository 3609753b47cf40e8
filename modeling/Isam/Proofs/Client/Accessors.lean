import Isam.Proofs.Calendar.Written
import Isam.Proofs.Client.Fresh
import Isam.Proofs.Field.Access
namespace Isam

open FiniteMap

variable {h h' : Host} {q : Request} {s : Session Host} {t : Table} {r r' : Record} {f : Field}
  {u v : Value} {selector : Selector} {i : Image} {ds : List FieldDecl} {a : Access}

def Image.ConformsTo (ds : List FieldDecl) (i : Image) : Prop := i.schema.fields = ds → i.Conforming

theorem Source.conformsTo (source : Source h q i) (old : h.Images (Image.ConformsTo ds)) :
    i.ConformsTo ds := by
  cases source with
  | kept file => exact old.opened _ _ file
  | created => exact fun _ => nofun
  | decoded hl bytes decoded => exact old.stored _ _ _ _ hl bytes decoded
  | stored file conforms =>
    intro fields
    rw [Image.store_schema] at fields
    exact (old.opened _ _ file fields).store conforms
  | removed file id => exact fun fields => (old.opened _ _ file fields).remove id

theorem Host.Images.conformsTo_next (old : h.Images (Image.ConformsTo ds))
    (inv : h.server.Registered) (e : Event) : (h.next e).Images (Image.ConformsTo ds) :=
  old.next inv (fun _ hi => hi) (fun _ _ source => source.conformsTo old) e

namespace Record

def FitsTo (ds : List FieldDecl) (r : Record) (t : Table) : Prop :=
  t.fields.map (·.toDecl) = ds → r.Fits t

theorem fitsTo_filling (ds : List FieldDecl) : Filling (Image.ConformsTo ds) (FitsTo ds) where
  of_values fits fields values same := (fits (fields ▸ same)).of_values fields values
  initial values _ := fits_initial values
  put fits hf stores values same := (fits same).put hf stores values
  loaded conforms schema stored same :=
    fits_of_conforms schema (conforms (schema.trans same) _ (Rows.mem_entries_iff.2 stored))

/-! Typed readings and settings. -/

def readAs (r : Record) (t : Table) (s : Session Host) (selector : Selector) (a : Access) :
    Except Error (Option a.Carrier) :=
  r.read t s selector (a.reading s.dateFormat)

def setAs (r : Record) (t : Table) (s : Session Host) (selector : Selector) :
    (a : Access) → a.Carrier → Except Error Record
  | .text, text => r.setText t s selector text
  | a, x => r.set t s selector (a.value x)

theorem readAs_eq (bound : r.checkBound t s = .ok ()) (selected : t.select selector = .ok f)
    (hv : r.values[f.number]? = some v) (a : Access) :
    r.readAs t s selector a = a.reading s.dateFormat f (.ok v) := by
  have hvalue : r.valueAt f.number = .ok v := by rw [valueAt, hv]
  rw [readAs, read, bound, selected, ← hvalue]
  rfl

end Record

inductive Field.Puts (f : Field) (format : DateFormat) : (a : Access) → a.Carrier → Value → Prop
  | parsed {text : String} {d : Date} (type : f.type = .date)
    (parsed : Date.parse text format = .ok d) : Puts f format .text text (.date d)
  | taken {a : Access} {x : a.Carrier} (other : ¬ (a = .text ∧ f.type = .date)) :
    Puts f format a x (f.type.coerce (a.value x))

namespace Record

theorem set_puts (bound : r.checkBound t s = .ok ()) (selected : t.select selector = .ok f)
    (hset : r.set t s selector u = .ok r') : r'.checkBound t s = .ok () ∧
      r'.values[f.number]? = some (f.type.coerce u) ∧ f.Stores (f.type.coerce u) := by
  obtain ⟨takes, inside, rfl⟩ := (set_eq_ok_iff bound selected).1 hset
  refine ⟨bound, List.getElem?_set_self inside, ?_⟩
  rcases takes with ⟨hnull, -⟩ | ⟨-, stores⟩
  · exact FieldType.checkValue_of_isNull hnull
  · exact stores

theorem setAs_puts (bound : r.checkBound t s = .ok ()) (selected : t.select selector = .ok f)
    {x : a.Carrier} (hset : r.setAs t s selector a x = .ok r') :
    ∃ v, f.Puts s.dateFormat a x v ∧ r'.checkBound t s = .ok () ∧
      r'.values[f.number]? = some v ∧ f.Stores v := by
  cases a with
  | text =>
    obtain ⟨g, hg, hset⟩ := bind_eq_ok.1 hset
    rw [selected] at hg
    cases hg
    obtain ⟨u, hu, hset⟩ := bind_eq_ok.1 hset
    have put := set_puts bound selected hset
    unfold Field.ofText at hu
    split at hu
    · rename_i hdate
      split at hu
      · rename_i d parsed
        cases hu
        have htype : f.type = .date := by
          cases hf : f.type <;> first
            | rfl
            | simp [hf, FieldType.isDate] at hdate
        exact ⟨.date d, .parsed htype parsed, put⟩
      · cases hu
    · rename_i hdate
      cases hu
      refine ⟨_, .taken fun hboth => hdate ?_, put⟩
      rw [hboth.2]
      rfl
  | _ => exact ⟨_, .taken fun hboth => Access.noConfusion hboth.1, set_puts bound selected hset⟩

/-- What is read of a field after a typed setting. -/
structure ReadsBack (r : Record) (t : Table) (s : Session Host) (selector : Selector) (f : Field)
    (a : Access) (x : a.Carrier) : Prop where
  types : f.type ∈ a.types ∨ a = .signed ∧ f.type ∈ Access.unsigned.types ∨
    a = .unsigned ∧ f.type ∈ Access.signed.types
  same : f.type ∈ a.types → ¬ (a = .text ∧ f.type = .date) →
    r.readAs t s selector a = .ok (some x)
  integer : ∀ m, (a.value x).integer? = some m →
    (f.type ∈ Access.signed.types →
      ∃ k : Int64, r.readAs t s selector .signed = .ok (some k) ∧ k.toInt = m) ∧
    (f.type ∈ Access.unsigned.types →
      ∃ k : UInt64, r.readAs t s selector .unsigned = .ok (some k) ∧ k.toNat = m)
  date : ∀ text, a.value x = .text text → f.type = .date → ∃ (d : Date) (back : String),
    Date.parse text s.dateFormat = .ok d ∧ r.readAs t s selector .date = .ok (some d) ∧
    r.readAs t s selector .text = .ok (some back) ∧ back.toList = Text.trim text.toList
  bytes : f.type = .lvb →
    (∀ text, a.value x = .text text →
      r.readAs t s selector .binary = .ok (some (Text.utf8 text))) ∧
    ∀ bs text, a.value x = .binary bs → Text.ofUtf8? bs = some text →
      r.readAs t s selector .text = .ok (some text)

theorem readAs_eq_ok (bound : r.checkBound t s = .ok ()) (selected : t.select selector = .ok f)
    (hv : r.values[f.number]? = some v) (stores : f.Stores v) {b : Access} {y : Option b.Carrier} :
    r.readAs t s selector b = .ok y ↔ f.type ∈ b.types ∧ b.shows s.dateFormat v = some y := by
  rw [readAs_eq bound selected hv]
  exact Access.reading_eq_ok stores

theorem readsBack (bound : r.checkBound t s = .ok ()) (selected : t.select selector = .ok f)
    {x : a.Carrier} (hset : r.setAs t s selector a x = .ok r') :
    r'.ReadsBack t s selector f a x := by
  obtain ⟨v, puts, bound', hv, stores⟩ := setAs_puts bound selected hset
  have reads (b : Access) (y : Option b.Carrier) (types : f.type ∈ b.types)
      (shows : b.shows s.dateFormat v = some y) : r'.readAs t s selector b = .ok y :=
    (readAs_eq_ok bound' selected hv stores).2 ⟨types, shows⟩
  cases puts with
  | @parsed text d type parsed =>
    have hdate : f.type ∈ Access.date.types := by simp [type, Access.types]
    have htext : f.type ∈ Access.text.types := by simp [type, Access.types]
    refine ⟨.inl htext, fun _ other => absurd ⟨rfl, type⟩ other, ?_, ?_, ?_⟩
    · intro m hm
      cases hm
    · rintro _ ⟨⟩ -
      exact ⟨d, _, parsed, reads .date _ hdate rfl, reads .text _ htext rfl,
        Date.format_of_parse parsed⟩
    · intro hlvb
      rw [type] at hlvb
      cases hlvb
  | taken other =>
    refine ⟨Access.types_of_stores stores, ?_, ?_, ?_, ?_⟩
    · intro types _
      refine reads a _ types ?_
      rw [Access.coerce_value_of_mem types, Access.shows_value]
    · intro m hm
      rcases Access.integer_cases stores (FieldType.integer?_coerce hm) with
        ⟨types, k, hk, heq⟩ | ⟨types, k, hk, heq⟩
      · refine ⟨fun _ => ⟨k, reads .signed _ types (by rw [hk]; rfl), heq⟩, fun unsigned => ?_⟩
        have hs := FieldType.not_signed_and_unsigned (Access.mem_signed_types.1 types)
        rw [Access.mem_unsigned_types.1 unsigned] at hs
        cases hs
      · refine ⟨fun signed => ?_, fun _ => ⟨k, reads .unsigned _ types (by rw [hk]; rfl), heq⟩⟩
        have hu := FieldType.not_unsigned_and_signed (Access.mem_unsigned_types.1 types)
        rw [Access.mem_signed_types.1 signed] at hu
        cases hu
    · intro text htext type
      cases a with
      | text => exact absurd ⟨rfl, type⟩ other
      | _ => cases htext
    · intro type
      have hbinary : f.type ∈ Access.binary.types := by simp [type, Access.types]
      have htext : f.type ∈ Access.text.types := by simp [type, Access.types]
      constructor
      · intro text hx
        rw [hx] at reads
        exact reads .binary _ hbinary rfl
      · intro bs text hx hbs
        rw [hx] at reads
        refine reads .text _ htext ?_
        show (Text.ofUtf8? bs).map some = _
        rw [hbs]
        rfl

end Record

namespace Workspace

/-- A field that was added to a table, of a bound record over files whose rows conform to the fields
of that table, holds in any state a value that it can store. Whether a typed reading succeeds goes by
the type of the field alone, unless it asks for the text of bytes that are none; it tells nothing
exactly of a null. What was set is then read as the same, in its own way: an integer in the sign of the
field, whichever sign it was set with, and a text that a date was set with as it spells that date,
without the blanks around it. -/
theorem accessors_read_back (config : EngineConfig) (disk : Disk) (xs : List Step) :
    let w := (start config disk).steps xs
    ∀ n r t s, w.record? n = some (r, t, s) → r.checkBound t s = .ok () →
    ∀ selector f, t.select selector = .ok f → f.Added →
    (∀ (l : Location) bs verify i, l.IsTable → disk.bytes? l = some bs →
      TableFile.decode bs verify = .ok i → i.schema.fields = t.fields.map (·.toDecl) →
      i.Conforming) →
    ∃ v, r.get t s selector = .ok v ∧ f.Stores v ∧
      (∀ a, ((∃ x, r.readAs t s selector a = .ok x) ↔ f.type ∈ a.types ∧ ¬ a.Garbled f v) ∧
        (r.readAs t s selector a = .ok none ↔ f.type ∈ a.types ∧ v = .null)) ∧
      ∀ a x r', r.setAs t s selector a x = .ok r' → r'.ReadsBack t s selector f a x := by
  intro w n r t s found bound selector f selected added conforming
  let ds : List FieldDecl := t.fields.map (·.toDecl)
  have filled : w.Filled (Image.ConformsTo ds) (Record.FitsTo ds) :=
    filled_steps (Record.fitsTo_filling ds) (fun e inv old => old.conformsTo_next inv e) config xs
      conforming
  obtain ⟨m, hr, found⟩ := record?_eq_some.1 found
  obtain ⟨o, entry, -⟩ := table?_eq_some.1 found
  have fits : r.Fits t := filled.buffered.records hr entry rfl
  have numbered := filled.buffered.numbered entry
  obtain ⟨v, hv, -⟩ := Record.look_eq_ok fits.width numbered bound selected
  have stores : f.Stores v := by
    rcases fits.values (numbered.of_select selected) hv with stores | hdefault
    · exact stores
    · exact added.defaultStored v hdefault
  refine ⟨v, Record.get_of_value bound selected hv, stores, fun a => ⟨?_, ?_⟩, ?_⟩
  · simp only [Record.readAs_eq_ok bound selected hv stores, exists_and_left]
    exact and_congr_right fun types => Access.exists_shows_iff stores types
  · rw [Record.readAs_eq_ok bound selected hv stores, Access.shows_eq_none_iff]
  · exact fun a x r' hset => Record.readsBack bound selected hset

def counted : Field := ⟨0, 0, "n", .uInteger, 4, {}⟩

def dated : Field := ⟨0, 1, "d", .date, 4, {}⟩

def blob : Field := ⟨0, 2, "b", .lvb, 4, {}⟩

def threeFields : List Step := opening ++
  [.act (.table "t" (.addField "n" .uInteger 4 {})), .act (.table "t" (.addField "d" .date 4 {})),
    .act (.table "t" (.addField "b" .lvb 4 {})), .act (.table "t" (.create "t" .normal)),
    .act (.newRecord "r" "t")]

theorem added_threeFields : ∀ f ∈ [counted, dated, blob], f.Added := by
  have added (f : Field) (h : (({ id := 0 } : Table).addField (Session.ofConfig Host.engine {})
      f.name f.type f.length f.properties).isOk = true) : f.Added := by
    obtain ⟨⟨g, t⟩, hadd⟩ := exists_of_isOk h
    exact ⟨_, _, g, t, hadd⟩
  simp only [List.forall_mem_cons, List.not_mem_nil, false_imp_iff, implies_true, and_true]
  exact ⟨added _ rfl, added _ rfl, added _ rfl⟩

theorem accessors_read_back_text : ∃ r t s v r' back,
    ((start {} .empty).steps threeFields).record? "r" = some (r, t, s) ∧
    r.get t s (.number 2) = .ok v ∧ r.readAs t s (.number 2) .text = .ok back ∧
    (∀ x, r.readAs t s (.number 2) .date ≠ .ok x) ∧
    r.setAs t s (.number 2) .text "é" = .ok r' ∧
    r'.readAs t s (.number 2) .text = .ok (some "é") ∧
    r'.readAs t s (.number 2) .binary = .ok (some [195, 169]) := by
  have hview : (((start {} .empty).steps threeFields).record? "r").map (fun x =>
      ((x.1.checkBound x.2.1 x.2.2).isOk, x.2.1.fields,
        (x.1.setAs x.2.1 x.2.2 (.number 2) .text "é").isOk,
        (x.1.get x.2.1 x.2.2 (.number 2)).toOption)) =
      some (true, [counted, dated, blob], true, some .null) := by decide +kernel
  obtain ⟨⟨r, t, s⟩, found, hview⟩ := Option.map_eq_some_iff.1 hview
  simp only [Prod.mk.injEq] at hview
  obtain ⟨hbound, hfields, hset, hget⟩ := hview
  obtain ⟨⟨⟩, bound⟩ := exists_of_isOk hbound
  obtain ⟨r', hset⟩ := exists_of_isOk hset
  have selected : t.select (.number 2) = .ok blob := by
    simp only [Table.select, Table.field, hfields]
    rfl
  obtain ⟨v, hv, stores, reads, sets⟩ := accessors_read_back {} .empty threeFields "r" r t s found
    bound (.number 2) blob selected (added_threeFields blob (by simp)) fun l bs verify i _ hbs => by
      cases l <;> cases hbs
  have hnull : v = .null := by
    rw [hv] at hget
    exact Option.some.inj hget
  have readable : ∃ x, r.readAs t s (.number 2) .text = .ok x := by
    refine (reads .text).1.2 ⟨by decide, ?_⟩
    rw [hnull]
    rintro ⟨-, -, _, ⟨⟩, -⟩
  obtain ⟨back, hback⟩ := readable
  have back := sets .text "é" r' hset
  refine ⟨r, t, s, v, r', _, found, hv, hback, fun x hx => ?_, hset, ?_, ?_⟩
  · exact absurd ((reads .date).1.1 ⟨x, hx⟩).1 (by decide)
  · exact back.same (by decide) (by decide)
  · exact (back.bytes rfl).1 "é" rfl

def ReadsAsSet (a : Access) : Prop := ∀ xs n r t s selector (x : a.Carrier) r',
  ((start {} .empty).steps xs).record? n = some (r, t, s) → r.checkBound t s = .ok () →
  (∀ f ∈ t.fields, f.Added) → r.setAs t s selector a x = .ok r' →
  r'.readAs t s selector a = .ok (some x)

theorem not_readsAsSet (selector : Selector) (x : a.Carrier) (y : Option (Option a.Carrier))
    (other : y ≠ some (some x))
    (hview : (((start {} .empty).steps threeFields).record? "r").map (fun z =>
      ((z.1.checkBound z.2.1 z.2.2).isOk, z.2.1.fields,
        (z.1.setAs z.2.1 z.2.2 selector a x).toOption.map fun r' =>
          (r'.readAs z.2.1 z.2.2 selector a).toOption)) =
      some (true, [counted, dated, blob], some y)) : ¬ ReadsAsSet a := by
  intro faithful
  obtain ⟨⟨r, t, s⟩, found, hview⟩ := Option.map_eq_some_iff.1 hview
  simp only [Prod.mk.injEq] at hview
  obtain ⟨hbound, hfields, hread⟩ := hview
  obtain ⟨⟨⟩, bound⟩ := exists_of_isOk hbound
  have added : ∀ f ∈ t.fields, f.Added := hfields ▸ added_threeFields
  cases hset : r.setAs t s selector a x with
  | error e =>
    rw [hset] at hread
    cases hread
  | ok r' =>
    rw [hset] at hread
    have hread : (r'.readAs t s selector a).toOption = y := Option.some.inj hread
    rw [faithful threeFields "r" r t s selector x r' found bound added hset] at hread
    exact other hread.symm

theorem not_all_sets_read_back : ¬ ReadsAsSet .signed ∧ ¬ ReadsAsSet .text := by
  constructor
  · exact not_readsAsSet (.number 0) (5 : Int64) none nofun (by decide +kernel)
  · exact not_readsAsSet (.number 1) " 12/31/1999 " (some (some "12/31/1999")) (by decide)
      (by decide +kernel)

end Workspace
end Isam
