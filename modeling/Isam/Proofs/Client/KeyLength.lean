import Isam.Proofs.Client.Declared
import Mathlib.Algebra.Order.BigOperators.Group.List
import Mathlib.Algebra.Order.Ring.Nat
namespace Isam

open FiniteMap

variable {w : Workspace Host} {n o : String} {t u : Table} {s : Session Host} {h h' : Host}
  {i j : Index} {f : Field} {mode : SegmentMode} {name : String}

namespace Index

def totalLength (i : Index) : Nat := (i.segments.map (·.length.toNat)).sum

def append (i : Index) (gs : List Segment) : Index := { i with segments := i.segments ++ gs }

theorem append_append (i : Index) (gs hs : List Segment) :
    (i.append gs).append hs = i.append (gs ++ hs) := by
  simp only [append, List.append_assoc]

theorem totalLength_append (i : Index) (gs : List Segment) :
    (i.append gs).totalLength = i.totalLength + (gs.map (·.length.toNat)).sum := by
  rw [totalLength, append, List.map_append, List.sum_append, totalLength]

theorem foldlM_addLength (gs : List Segment) (n : UInt32) :
    gs.foldlM addLength n =
      if n.toNat + (gs.map (·.length.toNat)).sum < UInt32.size then
        .ok (UInt32.ofNat (n.toNat + (gs.map (·.length.toNat)).sum))
      else .error (.panic .keyLength) := by
  induction gs generalizing n with
  | nil =>
    rw [List.map_nil, List.sum_nil, Nat.add_zero, if_pos n.toNat_lt_size, UInt32.ofNat_toNat]
    rfl
  | cons g gs ih =>
    rw [List.foldlM_cons, List.map_cons, List.sum_cons, ← Nat.add_assoc]
    by_cases fits : n.toNat + g.length.toNat < UInt32.size
    · have hsum : (n + g.length).toNat = n.toNat + g.length.toNat := by
        rw [UInt32.toNat_add]
        exact Nat.mod_eq_of_lt fits
      rw [addLength, if_pos fits]
      exact (ih (n + g.length)).trans (by rw [hsum])
    · -- what is over the bound stays over it
      rw [addLength, if_neg fits, if_neg (by omega)]
      rfl

theorem keyLength_eq (i : Index) : i.keyLength =
    if i.totalLength < UInt32.size then .ok (UInt32.ofNat i.totalLength)
    else .error (.panic .keyLength) := by
  rw [keyLength, foldlM_addLength, totalLength, UInt32.toNat_zero, Nat.zero_add]

theorem keyLength_eq_ok {k : UInt32} : i.keyLength = .ok k ↔ k.toNat = i.totalLength := by
  rw [keyLength_eq]
  split
  · rename_i fits
    rw [Except.ok.injEq, ← UInt32.toNat_inj, UInt32.toNat_ofNat_of_lt' fits, eq_comm]
  · rename_i exceeds
    have hk := k.toNat_lt_size
    constructor
    · exact nofun
    · intro heq
      omega

theorem keyLength_panics_iff : i.keyLength = .error (.panic .keyLength) ↔
    UInt32.size ≤ i.totalLength := by
  rw [keyLength_eq, ← Nat.not_lt]
  split <;> simp_all

end Index

def FieldType.Fixes (type : FieldType) (length : UInt32) : Prop :=
  type.naturalLength?.isSome = true ∧ type.checkLength length = .ok ()

theorem FieldType.Fixes.le {type : FieldType} {length : UInt32} (fixes : type.Fixes length) :
    length.toNat ≤ 16 := by
  obtain ⟨hsome, hcheck⟩ := fixes
  cases type with
  | chars | varChar | binary | unknown => cases hsome
  | _ =>
    simp only [checkLength, isKnown, naturalLength?, if_true] at hcheck
    split at hcheck
    · rename_i hlength
      rw [← hlength]
      decide
    · cases hcheck

theorem Index.totalLength_le (fixed : ∀ g ∈ i.segments, ∃ type : FieldType, type.Fixes g.length) :
    i.totalLength ≤ i.segments.length * 16 := by
  have hle : ∀ n ∈ i.segments.map (·.length.toNat), n ≤ 16 := by
    intro n hn
    obtain ⟨g, hg, rfl⟩ := List.mem_map.1 hn
    obtain ⟨type, fixes⟩ := fixed g hg
    exact fixes.le
  have hsum := List.sum_le_card_nsmul _ 16 hle
  rw [List.length_map] at hsum
  exact hsum

namespace Table

structure Owned (t : Table) : Prop where
  fields : ∀ f ∈ t.fields, f.table = t.id
  indexes : ∀ i ∈ t.indexes, i.table = t.id

theorem apply_table {edit : IndexEdit} (applied : edit.apply i = .ok j) : j.table = i.table := by
  cases edit with
  | allowDuplicates | allowNullKeys =>
    obtain ⟨⟨⟩, -, ⟨⟩⟩ := bind_eq_ok.1 applied
    rfl
  | addSegment f mode =>
    rw [(Index.addSegment_eq_ok applied).2]

theorem mem_replaceIndex {is : List Index} {x : Index} (hx : x ∈ replaceIndex j is) :
    x = j ∨ x ∈ is := by
  induction is with
  | nil => cases hx
  | cons y is ih =>
    rw [replaceIndex] at hx
    split at hx
    · exact (List.mem_cons.1 hx).imp_right (List.mem_cons_of_mem y)
    · rcases List.mem_cons.1 hx with rfl | hx
      · exact .inr List.mem_cons_self
      · exact (ih hx).imp_right (List.mem_cons_of_mem y)

theorem find?_replaceIndex {is : List Index} (found : is.find? (·.name == j.name) = some i) :
    (replaceIndex j is).find? (·.name == j.name) = some j := by
  induction is with
  | nil => cases found
  | cons y is ih =>
    rw [List.find?_cons] at found
    rw [replaceIndex]
    cases hy : y.name == j.name with
    | true => simp
    | false =>
      rw [hy] at found
      simp [hy, ih found]

theorem Owned.edit (owned : t.Owned) {edit : IndexEdit}
    (edited : t.editIndex name edit.apply = .ok u) : u.Owned := by
  obtain ⟨i, j, hi, hj, rfl⟩ := editIndex_eq_ok edited
  refine ⟨owned.fields, fun x hx => ?_⟩
  rcases mem_replaceIndex hx with rfl | hx
  · rw [apply_table hj]
    exact owned.indexes i (List.mem_of_find?_eq_some (indexNamed_eq_ok hi))
  · exact owned.indexes x hx

theorem load_owned {schema : Schema} (loaded : t.load schema = .ok u) : u.Owned := by
  obtain ⟨is, hindexes, ⟨⟩⟩ := bind_eq_ok.1 loaded
  refine ⟨fun f hf => ?_, fun i hi => ((indexesOf_loaded hindexes).2 i hi).1⟩
  obtain ⟨d, -, rfl⟩ := List.mem_map.1 hf
  rfl

theorem Owned.yields (owned : t.Owned) {call : TableCall} (yields : t.Yields s h call u h') :
    u.Owned := by
  cases yields with
  | failed => exact owned
  | path => exact ⟨owned.fields, owned.indexes⟩
  | field added =>
    obtain ⟨-, -, rfl, rfl⟩ := addField_eq_ok added
    exact ⟨List.forall_mem_append.2 ⟨owned.fields, List.forall_mem_singleton.2 rfl⟩, owned.indexes⟩
  | index added =>
    obtain ⟨rfl, rfl⟩ := addIndex_eq_ok added
    exact ⟨owned.fields, List.forall_mem_append.2 ⟨owned.indexes, List.forall_mem_singleton.2 rfl⟩⟩
  | edited edited | segment _ edited => exact owned.edit edited
  | created =>
    refine ⟨owned.fields, fun x hx => ?_⟩
    obtain ⟨i, hi, rfl⟩ := List.mem_map.1 hx
    exact owned.indexes i hi
  | opened _ _ _ loaded => exact ⟨(load_owned loaded).fields, (load_owned loaded).indexes⟩

def addSegments (t : Table) (index : String) (gs : List (Field × SegmentMode)) :
    Except Error Table :=
  gs.foldlM (fun t g => t.addSegment index g.1.name g.2) t

def segmentOf (g : Field × SegmentMode) : Segment := ⟨g.1.name, g.1.number, g.1.length, g.2⟩

theorem Owned.addSegment (owned : t.Owned) (named : t.indexNamed name = .ok i)
    (mutable : i.frozen = false) (found : t.fieldNamed f.name = .ok f) :
    t.addSegment name f.name mode =
      .ok { t with indexes := replaceIndex (i.append [segmentOf (f, mode)]) t.indexes } := by
  have selected : t.select (.named f.name) = .ok f := found
  obtain ⟨k, hk⟩ := field_of_select selected
  have hindex := List.mem_of_find?_eq_some (indexNamed_eq_ok named)
  have howner : f.table = i.table := by
    rw [owned.fields f (List.mem_of_getElem? hk), owned.indexes i hindex]
  have hadd : i.addSegment f mode = .ok (i.append [segmentOf (f, mode)]) := by
    simp [Index.addSegment, Index.checkMutable, mutable, howner, Index.append, segmentOf, bind,
      Except.bind, pure, Except.pure]
  exact bind_eq_ok.2 ⟨f, found, bind_eq_ok.2 ⟨i, named, bind_eq_ok.2 ⟨_, hadd, rfl⟩⟩⟩

theorem indexNamed_replaced (named : t.indexNamed name = .ok i) (hname : j.name = i.name) :
    Table.indexNamed { t with indexes := replaceIndex j t.indexes } name = .ok j := by
  have found := indexNamed_eq_ok named
  have hi : i.name = name := by simpa using List.find?_some found
  rw [← hi, ← hname] at found ⊢
  simp only [indexNamed, find?_replaceIndex found]

theorem Owned.addSegments (owned : t.Owned) (named : t.indexNamed name = .ok i)
    (mutable : i.frozen = false) {gs : List (Field × SegmentMode)}
    (found : ∀ g ∈ gs, t.fieldNamed g.1.name = .ok g.1) :
    ∃ u, t.addSegments name gs = .ok u ∧ u.indexNamed name = .ok (i.append (gs.map segmentOf)) := by
  induction gs generalizing t i with
  | nil =>
    refine ⟨t, rfl, ?_⟩
    rw [List.map_nil, Index.append, List.append_nil]
    exact named
  | cons g gs ih =>
    obtain ⟨hg, hgs⟩ := List.forall_mem_cons.1 found
    let j := i.append [segmentOf g]
    have hadd : t.addSegment name g.1.name g.2 = .ok { t with indexes := replaceIndex j t.indexes } :=
      owned.addSegment named mutable hg
    have hindex := indexNamed_replaced (j := j) named rfl
    have owned' : Owned { t with indexes := replaceIndex j t.indexes } := by
      refine ⟨owned.fields, fun x hx => ?_⟩
      rcases mem_replaceIndex hx with rfl | hx
      · exact owned.indexes i (List.mem_of_find?_eq_some (indexNamed_eq_ok named))
      · exact owned.indexes x hx
    obtain ⟨u, hu, hlast⟩ := ih owned' hindex mutable hgs
    rw [Index.append_append] at hlast
    exact ⟨u, bind_eq_ok.2 ⟨_, hadd, hu⟩, hlast⟩

theorem Named.indexNamed (named : t.Named) (hi : i ∈ t.indexes) : t.indexNamed i.name = .ok i := by
  have hsome : (t.indexes.find? (·.name == i.name)).isSome = true :=
    List.find?_isSome.2 ⟨i, hi, beq_self_eq_true i.name⟩
  obtain ⟨j, found⟩ := Option.isSome_iff_exists.1 hsome
  have hname : j.name = i.name := by simpa using List.find?_some found
  have hj := List.mem_of_find?_eq_some found
  rw [Table.indexNamed, found, List.inj_on_of_nodup_map named.indexes hj hi hname]

theorem Named.fieldNamed (named : t.Named) (hf : f ∈ t.fields) : t.fieldNamed f.name = .ok f := by
  obtain ⟨k, hk⟩ := List.mem_iff_getElem?.1 hf
  have hnumber := (named.numbers f.name k).2 ⟨f, hk, rfl⟩
  simp only [Table.fieldNamed, hnumber, Option.bind_some, hk]

end Table

namespace Workspace

theorem owned_steps (config : EngineConfig) (disk : Disk) (xs : List Step) :
    ∀ n o t, get? ((start config disk).steps xs).tables n = some (o, t) → t.Owned := by
  have new (id : TableId) : Table.Owned { id } :=
    ⟨fun _ hf => absurd hf List.not_mem_nil, fun _ hi => absurd hi List.not_mem_nil⟩
  have each (w : Workspace Host) (y : Step) (_ : True)
      (kept : w.Standing ∧ ∀ n o t, get? w.tables n = some (o, t) → t.Owned) :
      (w.step y).Standing ∧ ∀ n o t, get? (w.step y).tables n = some (o, t) → t.Owned := by
    obtain ⟨standing, owned⟩ := kept
    refine ⟨standing.step y, tables_step standing owned new ?_ ?_⟩
    · exact fun t before => ⟨before.fields, before.indexes⟩
    · intro n o t s call _ _ hosted before
      exact before.yields (t.yields hosted call w.state)
  exact (steps_keep each (fun _ _ => trivial) ⟨standing_start config disk, nofun⟩).2

/-- In any state, the length of a key is told of an index as the sum of the lengths of its segments,
exactly as long as that is a 32-bit word, so always where the lengths are those that types give and the
segments are not absurdly many. Else it panics, and an index that is not frozen takes any fields of its
table, of any lengths and any number of times, so that nothing keeps the sum below that number. -/
theorem key_length_sum (config : EngineConfig) (disk : Disk) (xs : List Step) :
    ∀ n o t, get? ((start config disk).steps xs).tables n = some (o, t) → ∀ i ∈ t.indexes,
      (∀ k, i.keyLength = .ok k ↔ k.toNat = i.totalLength) ∧
      (i.keyLength = .error (.panic .keyLength) ↔ UInt32.size ≤ i.totalLength) ∧
      ((∀ g ∈ i.segments, ∃ type : FieldType, type.Fixes g.length) →
        i.segments.length < 2 ^ 28 → ∃ k, i.keyLength = .ok k) ∧
      (i.frozen = false → ∀ gs : List (Field × SegmentMode), (∀ g ∈ gs, g.1 ∈ t.fields) →
        ∃ u j, t.addSegments i.name gs = .ok u ∧ j ∈ u.indexes ∧ j.name = i.name ∧
          j.totalLength = i.totalLength + (gs.map (·.1.length.toNat)).sum ∧
          (j.keyLength = .error (.panic .keyLength) ↔ UInt32.size ≤ j.totalLength)) := by
  intro n o t entry i hi
  have owned := owned_steps config disk xs n o t entry
  have named := named_steps config disk xs n o t entry
  refine ⟨fun k => Index.keyLength_eq_ok, Index.keyLength_panics_iff, fun fixed few => ?_,
    fun mutable gs own => ?_⟩
  · have hle := Index.totalLength_le fixed
    have fits : i.totalLength < UInt32.size := by
      rw [UInt32.size]
      omega
    exact ⟨_, Index.keyLength_eq_ok.2 (UInt32.toNat_ofNat_of_lt' fits)⟩
  · obtain ⟨u, hu, hj⟩ := owned.addSegments (named.indexNamed hi) mutable fun g hg =>
      named.fieldNamed (own g hg)
    have hmem := List.mem_of_find?_eq_some (Table.indexNamed_eq_ok hj)
    refine ⟨u, _, hu, hmem, rfl, ?_, Index.keyLength_panics_iff⟩
    rw [Index.totalLength_append, List.map_map]
    rfl

def wide : List Step := opening ++
  [.act (.table "t" (.addField "a" .chars 4294967295 {})), .act (.table "t" (.addIndex "by" .fixed)),
    .act (.table "t" (.addSegment "by" "a" {}))]

theorem key_length_repeated : ∃ o t i u j,
    get? ((start {} .empty).steps wide).tables "t" = some (o, t) ∧ i ∈ t.indexes ∧
    i.keyLength = .ok 4294967295 ∧
    t.addSegments i.name (t.fields.map fun f => (f, {})) = .ok u ∧ j ∈ u.indexes ∧
    j.totalLength = 8589934590 ∧ j.keyLength = .error (.panic .keyLength) := by
  have hview : (get? ((start {} .empty).steps wide).tables "t").map (fun x =>
      (x.2.indexes.map fun i => (i.frozen, i.totalLength), x.2.fields.map (·.length))) =
        some ([(false, 4294967295)], [4294967295]) := by decide +kernel
  obtain ⟨⟨o, t⟩, entry, hview⟩ := Option.map_eq_some_iff.1 hview
  obtain ⟨hindexes, hfields⟩ := Prod.mk.inj hview
  obtain ⟨i, is, his, hi, -⟩ := List.map_eq_cons_iff.1 hindexes
  obtain ⟨hfrozen, htotal⟩ := Prod.mk.inj hi
  have hmem : i ∈ t.indexes := his ▸ List.mem_cons_self
  obtain ⟨exact, -, -, grows⟩ := key_length_sum {} .empty wide "t" o t entry i hmem
  obtain ⟨u, j, hu, hj, -, hsum, hkey⟩ := grows hfrozen (t.fields.map fun f => (f, {})) (by simp)
  have hlengths : (t.fields.map fun f => (f, ({} : SegmentMode))).map (·.1.length.toNat) =
      (t.fields.map (·.length)).map (·.toNat) := by simp
  have hsum : j.totalLength = 8589934590 := by
    rw [hsum, htotal, hlengths, hfields]
    rfl
  have hpanics := hkey.2 (by rw [hsum]; decide)
  exact ⟨o, t, i, u, j, entry, hmem, (exact _).2 htotal.symm, hu, hj, hsum, hpanics⟩

theorem not_all_key_lengths_exact : ¬ ∀ xs n o t,
    get? ((start {} .empty).steps xs).tables n = some (o, t) →
      ∀ i ∈ t.indexes, ∃ k, i.keyLength = .ok k ∧ k.toNat = i.totalLength := by
  intro exact
  have hview : (get? ((start {} .empty).steps
      (wide ++ [.act (.table "t" (.addSegment "by" "a" {}))])).tables "t").map (fun x =>
        x.2.indexes.map fun i => i.totalLength) = some [8589934590] := by decide +kernel
  obtain ⟨⟨o, t⟩, entry, hindexes⟩ := Option.map_eq_some_iff.1 hview
  obtain ⟨i, is, his, htotal, -⟩ := List.map_eq_cons_iff.1 hindexes
  obtain ⟨k, -, hk⟩ := exact _ "t" o t entry i (his ▸ List.mem_cons_self)
  have hlt := k.toNat_lt_size
  rw [hk, htotal] at hlt
  exact absurd hlt (by decide)

end Workspace
end Isam
