import Isam.Proofs.FiniteMap
import Isam.Proofs.Schema.Valid
namespace Isam.Schema

variable {s : Schema} {name : String} {k : Nat} {f : FieldDecl} {i : IndexDecl}
  {earlier is : List IndexDecl}

structure WellFormed (s : Schema) : Prop where
  inhabited : s.fields ≠ []
  numbers : ∀ (k : Nat) (f : FieldDecl), s.fields[k]? = some f → f.number.toNat = k
  named : ∀ f ∈ s.fields, f.name ≠ ""
  fieldNames : (s.fields.map (·.name)).Nodup
  indexNames : (s.indexes.map (·.name)).Nodup
  segments : ∀ i ∈ s.indexes, i.segments ≠ [] ∧
    ∀ g ∈ i.segments, ∃ f ∈ s.fields, f.name = g.field

theorem position?_of_last (s : Schema) (name : String) : s.numbered.position? name =
    (s.fields.reverse.find? (·.name == name)).map (·.number.toNat) := by
  rw [position?, number?, numbered, ← List.map_reverse, List.find?_map, Option.map_map,
    Option.map_map]
  rfl

theorem position?_eq_none : s.numbered.position? name = none ↔ ∀ f ∈ s.fields, f.name ≠ name := by
  simp [position?_of_last]

theorem field_of_position? (hk : s.numbered.position? name = some k) :
    ∃ f ∈ s.fields, f.name = name ∧ f.number.toNat = k := by
  rw [position?_of_last, Option.map_eq_some_iff] at hk
  obtain ⟨f, hfound, hnumber⟩ := hk
  have hname := List.find?_some hfound
  exact ⟨f, List.mem_reverse.1 (List.mem_of_find?_eq_some hfound), by simpa using hname, hnumber⟩

theorem isSome_position? :
    (s.numbered.position? name).isSome = true ↔ ∃ f ∈ s.fields, f.name = name := by
  rw [← Option.ne_none_iff_isSome, ne_eq, position?_eq_none]
  simp

theorem name_inj (distinct : (s.fields.map (·.name)).Nodup) {n : Nat} {g : FieldDecl}
    (hf : s.fields[k]? = some f) (hg : s.fields[n]? = some g) (heq : f.name = g.name) : k = n := by
  have hk : k < (s.fields.map (·.name)).length := by
    rw [List.length_map]
    exact (List.getElem?_eq_some_iff.1 hf).1
  apply (List.getElem?_inj hk distinct).1
  rw [List.getElem?_map, List.getElem?_map, hf, hg, Option.map_some, Option.map_some, heq]

namespace WellFormed

theorem position?_eq_some (wf : s.WellFormed) :
    s.numbered.position? name = some k ↔ ∃ f, s.fields[k]? = some f ∧ f.name = name := by
  have stands {n : Nat} (hn : s.numbered.position? name = some n) :
      ∃ f, s.fields[n]? = some f ∧ f.name = name := by
    obtain ⟨f, hf, hname, hnumber⟩ := field_of_position? hn
    obtain ⟨m, hm⟩ := List.mem_iff_getElem?.1 hf
    obtain rfl : m = n := (wf.numbers m f hm).symm.trans hnumber
    exact ⟨f, hm, hname⟩
  refine ⟨stands, ?_⟩
  rintro ⟨f, hf, hname⟩
  cases hn : s.numbered.position? name with
  | none => exact absurd hname (position?_eq_none.1 hn f (List.mem_of_getElem? hf))
  | some n =>
    obtain ⟨g, hg, hgname⟩ := stands hn
    rw [name_inj wf.fieldNames hg hf (hgname.trans hname.symm)]

theorem field?_eq_some (wf : s.WellFormed) :
    s.numbered.field? name = some f ↔ f ∈ s.fields ∧ f.name = name := by
  rw [field?, Option.bind_eq_some_iff]
  constructor
  · rintro ⟨k, hk, hf⟩
    obtain ⟨g, hg, hname⟩ := wf.position?_eq_some.1 hk
    rw [show s.numbered.fields = s.fields from rfl, hg] at hf
    cases hf
    exact ⟨List.mem_of_getElem? hg, hname⟩
  · rintro ⟨hf, hname⟩
    obtain ⟨k, hk⟩ := List.mem_iff_getElem?.1 hf
    exact ⟨k, wf.position?_eq_some.2 ⟨f, hk, hname⟩, hk⟩

end WellFormed

theorem checkIndex_eq_ok : s.checkIndex earlier i = .ok () ↔ (∀ j ∈ earlier, j.name ≠ i.name) ∧
    i.segments ≠ [] ∧ ∀ g ∈ i.segments, (s.position? g.field).isSome = true := by
  unfold checkIndex
  split
  · rename_i hany
    obtain ⟨j, hj, hname⟩ := List.any_eq_true.1 hany
    simpa using fun hnone => absurd (by simpa using hname) (hnone j hj)
  · rename_i hnone
    have hearlier : ∀ j ∈ earlier, j.name ≠ i.name := by simpa using hnone
    split
    · simp_all
    · rename_i hempty
      have hsegments : i.segments ≠ [] := by simpa using hempty
      split
      · rename_i g hfound
        have hmem := List.mem_of_find?_eq_some hfound
        have hg : s.position? g.field = none := by simpa using List.find?_some hfound
        simpa using fun _ _ => ⟨g, hmem, hg⟩
      · rename_i hall
        have hfound : ∀ g ∈ i.segments, (s.position? g.field).isSome = true := by
          simpa [Option.isSome_iff_ne_none] using hall
        exact iff_of_true rfl ⟨hearlier, hsegments, hfound⟩

theorem checkIndexes_eq_ok : s.checkIndexes earlier is = .ok () ↔
    (∀ j ∈ earlier, ∀ i ∈ is, j.name ≠ i.name) ∧ (is.map (·.name)).Nodup ∧
      ∀ i ∈ is, i.segments ≠ [] ∧ ∀ g ∈ i.segments, (s.position? g.field).isSome = true := by
  induction is generalizing earlier with
  | nil => simp [checkIndexes]
  | cons i is ih =>
    rw [checkIndexes, bind_eq_ok, List.map_cons, List.nodup_cons, List.forall_mem_cons]
    constructor
    · rintro ⟨⟨⟩, hi, his⟩
      obtain ⟨hearlier, hsegments⟩ := checkIndex_eq_ok.1 hi
      obtain ⟨hothers, hnodup, hall⟩ := ih.1 his
      obtain ⟨hothers, hlater⟩ := List.forall_mem_append.1 hothers
      refine ⟨fun j hj => ?_, ⟨?_, hnodup⟩, hsegments, hall⟩
      · exact List.forall_mem_cons.2 ⟨hearlier j hj, hothers j hj⟩
      · intro hmem
        obtain ⟨j, hj, hname⟩ := List.mem_map.1 hmem
        exact hlater i List.mem_cons_self j hj hname.symm
    · rintro ⟨hearlier, ⟨hfresh, hnodup⟩, hsegments, hall⟩
      have hi := fun j hj => (List.forall_mem_cons.1 (hearlier j hj)).1
      refine ⟨(), checkIndex_eq_ok.2 ⟨hi, hsegments⟩, ih.2 ⟨?_, hnodup, hall⟩⟩
      rw [List.forall_mem_append, List.forall_mem_singleton]
      refine ⟨fun j hj => (List.forall_mem_cons.1 (hearlier j hj)).2, fun j hj hname => ?_⟩
      exact hfresh (List.mem_map.2 ⟨j, hj, hname.symm⟩)

theorem validate_eq_ok : s.validate = .ok () ↔ s.fields ≠ [] ∧
    s.checkFields 0 s.fields = .ok () ∧ s.checkIndexes [] s.indexes = .ok () := by
  unfold validate
  split
  · simp_all
  · rename_i hfields
    rw [bind_eq_ok]
    constructor
    · rintro ⟨⟨⟩, hchecked, hindexes⟩
      exact ⟨by simpa using hfields, hchecked, hindexes⟩
    · rintro ⟨-, hchecked, hindexes⟩
      exact ⟨(), hchecked, hindexes⟩

theorem wellFormed_iff : s.numbered.validate = .ok () ↔ s.WellFormed := by
  rw [validate_eq_ok, checkFields_eq_ok, checkIndexes_eq_ok]
  simp only [Nat.zero_add, checkField_eq_ok, isSome_position?]
  constructor
  · rintro ⟨inhabited, fields, -, indexNames, segments⟩
    refine ⟨inhabited, fun k f hf => (fields k f hf).1, ?_, ?_, indexNames, segments⟩
    · intro f hf
      obtain ⟨k, hk⟩ := List.mem_iff_getElem?.1 hf
      exact (fields k f hk).2.1
    · exact FiniteMap.nodup_of_positions fun k f hf => (fields k f hf).2.2
  · intro wf
    refine ⟨wf.inhabited, fun k f hf => ?_, nofun, wf.indexNames, wf.segments⟩
    exact ⟨wf.numbers k f hf, wf.named f (List.mem_of_getElem? hf),
      wf.position?_eq_some.2 ⟨f, hf, rfl⟩⟩

end Isam.Schema
