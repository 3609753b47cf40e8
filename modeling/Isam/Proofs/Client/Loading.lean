import Isam.Proofs.Client.Definitions
import Isam.Proofs.Schema.WellFormed
namespace Isam

variable {t u : Table} {s : Schema} {fields : List Field} {i j : Index} {d : IndexDecl}
  {owner : TableId} {n : Nat} {is : List Index} {ds : List IndexDecl}

namespace Index

structure Loaded (owner : TableId) (d : IndexDecl) (i : Index) : Prop where
  decl : i.toDecl = d
  owned : i.table = owner
  frozen : i.frozen = true

theorem loaded_segments {gs : List SegmentDecl} (ha : gs.foldlM (addDeclared fields) i = .ok j) :
    j.toDecl = { i.toDecl with segments := i.toDecl.segments ++ gs } ∧ j.table = i.table := by
  induction gs generalizing i with
  | nil =>
    cases ha
    rw [List.append_nil]
    exact ⟨rfl, rfl⟩
  | cons g gs ih =>
    obtain ⟨k, hk, ha⟩ := bind_eq_ok.1 ha
    obtain ⟨f, -, hname, rfl⟩ := addDeclared_eq_ok hk
    obtain ⟨hdecl, htable⟩ := ih ha
    refine ⟨?_, htable⟩
    rw [hdecl]
    simp [toDecl, hname]

theorem ofDecl_loaded (ha : ofDecl owner n d fields = .ok i) : Loaded owner d i := by
  obtain ⟨j, hj, ⟨⟩⟩ := bind_eq_ok.1 ha
  obtain ⟨hdecl, htable⟩ := loaded_segments hj
  exact ⟨hdecl, htable, rfl⟩

theorem exists_segments {gs : List SegmentDecl}
    (named : ∀ g ∈ gs, ∃ f ∈ fields, f.name = g.field) (owned : ∀ f ∈ fields, f.table = i.table)
    (mutable : i.frozen = false) : ∃ j, gs.foldlM (addDeclared fields) i = .ok j := by
  induction gs generalizing i with
  | nil => exact ⟨i, rfl⟩
  | cons g gs ih =>
    obtain ⟨⟨f, hf, hname⟩, hgs⟩ := List.forall_mem_cons.1 named
    have hsome : (fields.find? (·.name == g.field)).isSome = true :=
      List.find?_isSome.2 ⟨f, hf, beq_iff_eq.2 hname⟩
    obtain ⟨x, hx⟩ := Option.isSome_iff_exists.1 hsome
    have hadd := addDeclared_found mutable hx (owned x (List.mem_of_find?_eq_some hx))
    obtain ⟨j, hj⟩ := ih hgs (i := { i with
      segments := i.segments ++ [⟨x.name, x.number, x.length, g.mode⟩] }) owned mutable
    exact ⟨j, bind_eq_ok.2 ⟨_, hadd, hj⟩⟩

end Index

namespace Table

theorem indexesOf_loaded (ha : indexesOf owner fields n ds = .ok is) :
    is.map (·.toDecl) = ds ∧ ∀ i ∈ is, i.table = owner ∧ i.frozen = true := by
  induction ds generalizing n is with
  | nil =>
    cases ha
    exact ⟨rfl, nofun⟩
  | cons d ds ih =>
    obtain ⟨i, hi, ha⟩ := bind_eq_ok.1 ha
    obtain ⟨is, his, ⟨⟩⟩ := bind_eq_ok.1 ha
    have first := Index.ofDecl_loaded hi
    obtain ⟨hdecls, hall⟩ := ih his
    rw [List.map_cons, hdecls, first.decl]
    exact ⟨rfl, List.forall_mem_cons.2 ⟨⟨first.owned, first.frozen⟩, hall⟩⟩

theorem exists_indexesOf
    (named : ∀ d ∈ ds, ∀ g ∈ d.segments, ∃ f ∈ fields, f.name = g.field)
    (owned : ∀ f ∈ fields, f.table = owner) (n : Nat) :
    ∃ is, indexesOf owner fields n ds = .ok is := by
  induction ds generalizing n with
  | nil => exact ⟨[], rfl⟩
  | cons d ds ih =>
    obtain ⟨hd, hds⟩ := List.forall_mem_cons.1 named
    let empty : Index := {
      table := owner, number := n, name := d.name, kind := d.kind
      allowDuplicates := d.allowDuplicates
      allowNullKeys := d.allowNullKeys }
    obtain ⟨j, hj⟩ := Index.exists_segments (i := empty) hd owned rfl
    obtain ⟨is, his⟩ := ih hds (n + 1)
    exact ⟨j.freeze :: is, bind_eq_ok.2 ⟨_, bind_eq_ok.2 ⟨j, hj, rfl⟩,
      bind_eq_ok.2 ⟨is, his, rfl⟩⟩⟩

theorem load_indexes (hl : t.load s = .ok u) : u.indexes.map (·.toDecl) = s.indexes ∧
    ∀ i ∈ u.indexes, i.table = t.id ∧ i.frozen = true := by
  obtain ⟨indexes, hindexes, ⟨⟩⟩ := bind_eq_ok.1 hl
  exact indexesOf_loaded hindexes

end Table

theorem Image.keyOf_toDecl (of : ∀ g ∈ i.segments, s.position? g.field = some g.number)
    (row : Row) :
    Image.keyOf s i.toDecl row = i.segments.map fun g => (row[g.number]?).getD .null := by
  rw [keyOf, Index.toDecl, List.map_map]
  apply List.map_congr_left
  intro g hg
  rw [Function.comp_apply, of g hg, Option.bind_some]

namespace Schema

theorem WellFormed.loads (wf : s.WellFormed) (t : Table) : ∃ u, t.load s.numbered = .ok u := by
  have named : ∀ d ∈ s.indexes, ∀ g ∈ d.segments,
      ∃ f ∈ s.fields.map (Field.ofDecl t.id), f.name = g.field := by
    intro d hd g hg
    obtain ⟨f, hf, hname⟩ := (wf.segments d hd).2 g hg
    exact ⟨Field.ofDecl t.id f, List.mem_map_of_mem hf, hname⟩
  obtain ⟨is, his⟩ := Table.exists_indexesOf named (List.forall_mem_map.2 fun _ _ => rfl) 0
  exact ⟨_, bind_eq_ok.2 ⟨is, his, rfl⟩⟩

theorem WellFormed.position?_segment (wf : s.WellFormed) (hl : t.load s.numbered = .ok u) {g : Segment}
    (hi : i ∈ u.indexes) (hg : g ∈ i.segments) :
    s.numbered.position? g.field = some g.number := by
  have valid : s.numbered.Valid := ⟨rfl, wellFormed_iff.2 wf⟩
  obtain ⟨f, hf, hname, -⟩ := (Table.load_defined valid hl).segments i hi g hg
  rw [Table.load_eq_ok hl, List.getElem?_map] at hf
  obtain ⟨d, hd, rfl⟩ := Option.map_eq_some_iff.1 hf
  rw [← hname]
  exact wf.position?_eq_some.2 ⟨d, hd, rfl⟩

/-- Validation accepts the well-formed schemas and no others. Of one that is accepted each name leads
to the one field that has it, and every table loads it, with segments at the positions at which the
engine looks for the parts of a key. -/
theorem validation_exact (s : Schema) :
    (s.numbered.validate = .ok () ↔ s.WellFormed) ∧
    (s.numbered.validate = .ok () →
      (∀ name k, s.numbered.position? name = some k ↔
        ∃ f, s.fields[k]? = some f ∧ f.name = name) ∧
      (∀ name, s.numbered.position? name = none ↔ ∀ f ∈ s.fields, f.name ≠ name) ∧
      (∀ name f, s.numbered.field? name = some f ↔ f ∈ s.fields ∧ f.name = name) ∧
      ∀ t : Table, ∃ u, t.load s.numbered = .ok u ∧
        u.fields = s.fields.map (Field.ofDecl t.id) ∧ u.indexes.map (·.toDecl) = s.indexes ∧
        ∀ i ∈ u.indexes, (∀ g ∈ i.segments, s.numbered.position? g.field = some g.number) ∧
          ∀ row, Image.keyOf s.numbered i.toDecl row =
            i.segments.map fun g => (row[g.number]?).getD .null) := by
  refine ⟨wellFormed_iff, fun accepted => ?_⟩
  have wf := wellFormed_iff.1 accepted
  refine ⟨fun _ _ => wf.position?_eq_some, fun _ => position?_eq_none,
    fun _ _ => wf.field?_eq_some, fun t => ?_⟩
  obtain ⟨u, hl⟩ := wf.loads t
  refine ⟨u, hl, Table.load_eq_ok hl, (Table.load_indexes hl).1, fun i hi => ?_⟩
  have of (g : Segment) (hg : g ∈ i.segments) := wf.position?_segment hl hi hg
  exact ⟨of, Image.keyOf_toDecl of⟩

def crossed : Schema := ofDecls
  [⟨"id", .uInteger, 4, 0, {}⟩, ⟨"name", .varChar, 20, 1, {}⟩]
  [⟨"by", .leading, false, true, [⟨"name", {}⟩, ⟨"id", {}⟩, ⟨"name", { descending := true }⟩]⟩]

theorem crossed_accepted : crossed.numbered.validate = .ok () ∧
    crossed.numbered.position? "name" = some 1 ∧ crossed.numbered.position? "Name" = none ∧
    ∃ u, Table.load { id := 1 } crossed.numbered = .ok u ∧
      u.indexes.map (·.toDecl) = crossed.indexes ∧
      ∀ i ∈ u.indexes, ∀ row, Image.keyOf crossed.numbered i.toDecl row =
        i.segments.map fun g => (row[g.number]?).getD .null := by
  have accepted : crossed.numbered.validate = .ok () := by decide +kernel
  obtain ⟨positions, strange, -, loads⟩ := (validation_exact crossed).2 accepted
  refine ⟨accepted, (positions "name" 1).2 ⟨_, rfl, rfl⟩, (strange "Name").2 (by decide), ?_⟩
  obtain ⟨u, hl, -, hindexes, of⟩ := loads { id := 1 }
  exact ⟨u, hl, hindexes, fun i hi => (of i hi).2⟩

end Schema
end Isam
