import Isam.Proofs.Client.WholeFiles
import Isam.Proofs.Field.Coerce
namespace Isam

open FiniteMap

variable {h : Host} {s : Session Host} {t : Table} {r r' : Record} {f : Field} {u v : Value}
  {selector : Selector} {i : Image} {row : Row}

namespace Record

theorem set_eq_ok_iff (bound : r.checkBound t s = .ok ()) (selected : t.select selector = .ok f) :
    r.set t s selector u = .ok r' ↔ f.Takes (f.type.coerce u) ∧ f.number < r.values.length ∧
      r' = { r with values := r.values.set f.number (f.type.coerce u) } := by
  constructor
  · intro hset
    obtain ⟨⟨⟩, -, hset⟩ := bind_eq_ok.1 hset
    obtain ⟨g, hg, hset⟩ := bind_eq_ok.1 hset
    rw [selected] at hg
    cases hg
    obtain ⟨v, accepted, hset⟩ := bind_eq_ok.1 hset
    obtain ⟨rfl, takes⟩ := Field.accepted_eq_ok.1 accepted
    unfold put at hset
    split at hset
    · rename_i inside
      cases hset
      exact ⟨takes, inside, rfl⟩
    · cases hset
  · rintro ⟨takes, inside, rfl⟩
    have accepted := Field.accepted_eq_ok.2 ⟨rfl, takes⟩
    exact bind_eq_ok.2 ⟨(), bound, bind_eq_ok.2 ⟨f, selected,
      bind_eq_ok.2 ⟨_, accepted, if_pos inside⟩⟩⟩

theorem look_of_value (bound : r.checkBound t s = .ok ()) (selected : t.select selector = .ok f)
    (hv : r.values[f.number]? = some v) : r.look t s selector = .ok (f, v) := by
  have hvalue : r.valueAt f.number = .ok v := by
    unfold valueAt
    rw [hv]
  exact bind_eq_ok.2 ⟨(), bound, bind_eq_ok.2 ⟨f, selected, bind_eq_ok.2 ⟨v, hvalue, rfl⟩⟩⟩

theorem get_of_value (bound : r.checkBound t s = .ok ()) (selected : t.select selector = .ok f)
    (hv : r.values[f.number]? = some v) : r.get t s selector = .ok v := by
  rw [get, look_of_value bound selected hv]
  rfl

/-- What comes of setting a field to a value. -/
structure SetTo (r : Record) (t : Table) (s : Session Host) (selector : Selector) (f : Field)
    (u : Value) : Prop where
  succeeds : (∃ r', r.set t s selector u = .ok r') ↔
    f.number < r.values.length ∧ f.Takes (f.type.coerce u)
  integer : ∀ m, u.integer? = some m →
    ((∃ r', r.set t s selector u = .ok r') ↔ f.number < r.values.length ∧ f.type.InRange m) ∧
    (f.type.coerce u).integer? = some m
  stores : ∀ r', r.set t s selector u = .ok r' →
    r' = { r with values := r.values.set f.number (f.type.coerce u) }
  reads : ∀ r' other, r.set t s selector u = .ok r' → t.select other = .ok f →
    r'.get t s other = .ok (f.type.coerce u)
  others : ∀ r' k, r.set t s selector u = .ok r' → k ≠ f.number → r'.values[k]? = r.values[k]?
  fails : ∀ h e, (r.call (.set selector u) t s h).1 = .error e →
    r.call (.set selector u) t s h = (.error e, r, h)
  panics : f.Takes (f.type.coerce u) → r.values.length ≤ f.number →
    r.set t s selector u = .error (.panic (.outsideBuffer f.number r.values.length))

theorem setTo (bound : r.checkBound t s = .ok ()) (selected : t.select selector = .ok f)
    (u : Value) : r.SetTo t s selector f u := by
  have succeeds : (∃ r', r.set t s selector u = .ok r') ↔
      f.number < r.values.length ∧ f.Takes (f.type.coerce u) := by
    simp only [set_eq_ok_iff bound selected, exists_and_left, exists_eq, and_true]
    exact and_comm
  have stores (r' : Record) (hset : r.set t s selector u = .ok r') :
      r' = { r with values := r.values.set f.number (f.type.coerce u) } :=
    ((set_eq_ok_iff bound selected).1 hset).2.2
  refine ⟨succeeds, ?_, stores, ?_, ?_, ?_, ?_⟩
  · intro m hm
    rw [succeeds, Field.takes_integer hm]
    exact ⟨Iff.rfl, FieldType.integer?_coerce hm⟩
  · intro r' other hset hother
    obtain ⟨-, inside, rfl⟩ := (set_eq_ok_iff bound selected).1 hset
    exact get_of_value bound hother (List.getElem?_set_self inside)
  · intro r' k hset hk
    rw [stores r' hset]
    exact List.getElem?_set_ne (Ne.symm hk)
  · intro h e herror
    have hcall : r.call (.set selector u) t s h = changed r h (r.set t s selector u) := rfl
    rw [hcall] at herror ⊢
    cases hset : r.set t s selector u with
    | error e' =>
      rw [hset] at herror
      cases herror
      rfl
    | ok r' =>
      rw [hset] at herror
      cases herror
  · intro takes outside
    have accepted := Field.accepted_eq_ok.2 ⟨rfl, takes⟩
    refine bind_eq_error.2 (.inr ⟨(), bound, bind_eq_error.2 (.inr ⟨f, selected,
      bind_eq_error.2 (.inr ⟨_, accepted, ?_⟩)⟩)⟩)
    exact if_neg (Nat.not_lt.2 outside)

theorem set_unaltered_iff (bound : r.checkBound t s = .ok ())
    (selected : t.select selector = .ok f) :
    (∃ r', r.set t s selector u = .ok r' ∧ r'.values[f.number]? = some u) ↔
      f.number < r.values.length ∧ f.toDecl.check u = .ok () := by
  rw [← Field.accepted_self_iff, Field.accepted_eq_ok]
  constructor
  · rintro ⟨r', hset, hu⟩
    obtain ⟨takes, inside, rfl⟩ := (set_eq_ok_iff bound selected).1 hset
    rw [List.getElem?_set_self inside, Option.some.injEq] at hu
    exact ⟨inside, hu.symm, takes⟩
  · rintro ⟨inside, hu, takes⟩
    refine ⟨_, (set_eq_ok_iff bound selected).2 ⟨takes, inside, rfl⟩, ?_⟩
    rw [← hu]
    exact List.getElem?_set_self inside

end Record

theorem Schema.checkRow_iff_accepted {sc : Schema} (fields : sc.fields = t.fields.map (·.toDecl)) :
    sc.checkRow row = .ok () ↔ row.length = t.fields.length ∧
      ∀ (k : Nat) g v, t.fields[k]? = some g → row[k]? = some v → g.accepted v = .ok v := by
  rw [checkRow_eq_ok, Conforms, fields, List.length_map]
  apply and_congr_right
  intro width
  constructor
  · intro checks k g v hg hv
    have hd : (t.fields.map (·.toDecl))[k]? = some g.toDecl := by
      rw [List.getElem?_map, hg]
      rfl
    have hzip : ((t.fields.map (·.toDecl)).zip row)[k]? = some (g.toDecl, v) :=
      List.getElem?_zip_eq_some.2 ⟨hd, hv⟩
    exact Field.accepted_self_iff.2 (checks _ (List.mem_of_getElem? hzip))
  · rintro accepts ⟨d, v⟩ hmem
    obtain ⟨k, hk⟩ := List.getElem?_of_mem hmem
    obtain ⟨hd, hv⟩ := List.getElem?_zip_eq_some.1 hk
    rw [List.getElem?_map] at hd
    obtain ⟨g, hg, rfl⟩ := Option.map_eq_some_iff.1 hd
    exact Field.accepted_self_iff.1 (accepts k g v hg hv)

namespace Workspace

variable {w w' : Workspace Host}

theorem true_filling : Record.Filling (fun _ => True) (fun _ _ => True) :=
  ⟨fun _ _ _ => trivial, fun _ => trivial, fun _ _ _ _ => trivial, fun _ _ _ => trivial⟩

theorem images_true (h : Host) : h.Images fun _ => True :=
  ⟨fun _ _ _ => trivial, fun _ _ _ _ _ _ _ => trivial⟩

def Matched (w : Workspace Host) : Prop := w.Filled (fun _ => True) fun _ _ => True

theorem Change.matched (change : w.Change w') (matched : w.Matched) : w'.Matched :=
  change.filled true_filling (fun _ _ _ => images_true _) matched

theorem Matched.step (matched : w.Matched) (x : Step) : (w.step x).Matched :=
  Filled.step true_filling (fun _ _ _ => images_true _) matched x

theorem matched_steps (config : EngineConfig) (disk : Disk) (xs : List Step) :
    ((start config disk).steps xs).Matched :=
  filled_steps true_filling (fun _ _ _ => images_true _) config xs fun _ _ _ _ _ _ _ => trivial

/-- A field of a bound record is set where the buffer has a place for it and the field takes the
value, turned to its own sign: an integer wherever its type has room for it. That and nothing else is
then in the buffer, and where it fails nothing changes. What is taken as it is, the engine takes in a
row at that field; and the buffer has a place for every field unless some table file has a row of the
wrong width. -/
theorem fields_set_exactly (config : EngineConfig) (disk : Disk) (xs : List Step) :
    let w := (start config disk).steps xs
    ∀ n r t s, w.record? n = some (r, t, s) → r.checkBound t s = .ok () →
    ∀ selector f, t.select selector = .ok f →
      ((∀ (l : Location) bs verify i, l.IsTable → disk.bytes? l = some bs →
        TableFile.decode bs verify = .ok i → i.FullRows) → f.number < r.values.length) ∧
      (∀ u, r.SetTo t s selector f u ∧ f.type.coerce (f.type.coerce u) = f.type.coerce u ∧
        (f.type.checkValue f.length u = .ok () → f.type.coerce u = u)) ∧
      ∀ i, w.state.image? r.handle = some i →
        (∃ d, i.schema.fields[f.number]? = some d ∧ ∀ u,
          (∃ r', r.set t s selector u = .ok r' ∧ r'.values[f.number]? = some u) ↔
            f.number < r.values.length ∧ d.check u = .ok ()) ∧
        ∀ row, i.schema.checkRow row = .ok () ↔ row.length = t.fields.length ∧
          ∀ (k : Nat) g v, t.fields[k]? = some g → row[k]? = some v → g.accepted v = .ok v := by
  intro w n r t s found bound selector f selected
  have matched : w.Matched := matched_steps config disk xs
  obtain ⟨m, hr, found⟩ := record?_eq_some.1 found
  obtain ⟨o, entry, -⟩ := table?_eq_some.1 found
  have hf := (matched.buffered.numbered entry).of_select selected
  refine ⟨?_, ?_, ?_⟩
  · intro full
    have wide := (whole_steps config xs full).buffered.records hr entry
    rw [wide]
    exact (List.getElem?_eq_some_iff.1 hf).1
  · intro u
    exact ⟨Record.setTo bound selected u, f.type.coerce_coerce u, FieldType.coerce_of_checkValue⟩
  · intro i hi
    have fields := matched.buffered.matching found bound hi
    refine ⟨⟨f.toDecl, ?_, fun u => Record.set_unaltered_iff bound selected⟩,
      fun row => Schema.checkRow_iff_accepted fields⟩
    rw [fields, List.getElem?_map, hf]
    rfl

theorem oneRecord_set : ∃ r t s f i, ((start {} .empty).steps oneRecord).record? "r" = some (r, t, s) ∧
    r.checkBound t s = .ok () ∧ t.select (.number 0) = .ok f ∧
    ((start {} .empty).steps oneRecord).state.image? r.handle = some i ∧
    (∃ r', r.set t s (.number 0) (.signed 5) = .ok r' ∧
      r'.get t s (.number 0) = .ok (.unsigned 5)) ∧
    (¬ ∃ r', r.set t s (.number 0) (.signed (-5)) = .ok r') ∧
    i.schema.checkRow [.unsigned 5] = .ok () ∧ ¬ i.schema.checkRow [.signed 5] = .ok () := by
  have hview : (((start {} .empty).steps oneRecord).record? "r").map (fun x =>
      ((x.1.checkBound x.2.1 x.2.2).isOk, x.2.1.fields.map fun f => (f.number, f.type, f.length),
        (((start {} .empty).steps oneRecord).state.image? x.1.handle).isSome)) =
      some (true, [(0, .uInteger, 4)], true) := by decide +kernel
  obtain ⟨⟨r, t, s⟩, found, hview⟩ := Option.map_eq_some_iff.1 hview
  simp only [Prod.mk.injEq] at hview
  obtain ⟨hbound, hfields, himage⟩ := hview
  obtain ⟨⟨⟩, bound⟩ := exists_of_isOk hbound
  obtain ⟨i, hi⟩ := Option.isSome_iff_exists.1 himage
  obtain ⟨f, hf, hkind⟩ := List.map_eq_singleton_iff.1 hfields
  simp only [Prod.mk.injEq] at hkind
  obtain ⟨hnumber, htype, hlength⟩ := hkind
  have selected : t.select (.number 0) = .ok f := by
    simp only [Table.select, Table.field, hf]
    rfl
  obtain ⟨inside, sets, engine⟩ :=
    fields_set_exactly {} .empty oneRecord "r" r t s found bound (.number 0) f selected
  have inside := inside fun l bs verify i _ hbs => by cases l <;> cases hbs
  have hfive : f.type.InRange 5 := by
    rw [htype]
    exact .inr ⟨4294967295, rfl, by decide, by decide⟩
  have hnegative : ¬ f.type.InRange (-5) := by
    rw [htype]
    rintro (⟨_, _, ⟨⟩, -⟩ | ⟨_, -, hzero, -⟩)
    exact absurd hzero (by decide)
  obtain ⟨r', hset⟩ := ((sets (.signed 5)).1.integer 5 rfl).1.2 ⟨inside, hfive⟩
  have hread := (sets (.signed 5)).1.reads r' _ hset selected
  refine ⟨r, t, s, f, i, found, bound, selected, hi, ⟨r', hset, ?_⟩, ?_, ?_, ?_⟩
  · rw [hread, htype]
    rfl
  · rw [((sets (.signed (-5))).1.integer (-5) rfl).1]
    exact fun h => hnegative h.2
  · refine ((engine i hi).2 _).2 ⟨by rw [hf]; rfl, fun k g v hg hv => ?_⟩
    cases k with
    | succ k => cases hv
    | zero =>
      rw [hf] at hg
      cases hg
      cases hv
      have takes : f.Takes (f.type.coerce (.unsigned 5)) := (Field.takes_integer rfl).2 hfive
      exact Field.accepted_eq_ok.2 ⟨by rw [htype]; rfl, takes⟩
  · intro hrow
    have accepted := (((engine i hi).2 _).1 hrow).2 0 f (.signed 5) (by rw [hf]; rfl) rfl
    have heq := (Field.accepted_eq_ok.1 accepted).1
    rw [htype] at heq
    cases heq

theorem not_all_sets_exact : ¬ ∀ config disk xs n r t s selector f u,
    ((start config disk).steps xs).record? n = some (r, t, s) → r.checkBound t s = .ok () →
    t.select selector = .ok f → f.Takes (f.type.coerce u) →
    ∃ r', r.set t s selector u = .ok r' := by
  intro sets
  have hrun : (((start {} (diskWith strayImage)).steps (opening ++
      .act (.table "t" (.openStored "t" .corrupt)) :: reading)).record? "r").map (fun x =>
        ((x.1.checkBound x.2.1 x.2.2).isOk, x.2.1.fields.map fun f => (f.number, f.type, f.length),
          (x.1.set x.2.1 x.2.2 (.number 0) (.unsigned 8)).isOk)) =
      some (true, [(0, .uInteger, 4)], false) := by
    decide +kernel
  obtain ⟨⟨r, t, s⟩, found, hview⟩ := Option.map_eq_some_iff.1 hrun
  simp only [Prod.mk.injEq] at hview
  obtain ⟨hbound, hfields, hset⟩ := hview
  obtain ⟨⟨⟩, bound⟩ := exists_of_isOk hbound
  obtain ⟨f, hf, hkind⟩ := List.map_eq_singleton_iff.1 hfields
  simp only [Prod.mk.injEq] at hkind
  obtain ⟨-, htype, hlength⟩ := hkind
  have selected : t.select (.number 0) = .ok f := by
    simp only [Table.select, Table.field, hf]
    rfl
  have takes : f.Takes (f.type.coerce (.unsigned 8)) := by
    rw [htype]
    refine .inr ⟨rfl, ?_⟩
    rw [Field.Stores, htype, hlength]
    rfl
  obtain ⟨r', ok⟩ := sets _ _ _ _ r t s (.number 0) f (.unsigned 8) found bound selected takes
  rw [ok] at hset
  cases hset

end Workspace
end Isam
