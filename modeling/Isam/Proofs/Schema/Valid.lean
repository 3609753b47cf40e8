import Isam.Error
import Isam.Schema.Basic
namespace Isam.Schema

variable {s : Schema} {k n : Nat} {f : FieldDecl} {fs : List FieldDecl} {row : Row}

theorem checkField_eq_ok : s.checkField n f = .ok () ↔
    f.number.toNat = n ∧ f.name ≠ "" ∧ s.position? f.name = some n := by
  unfold checkField
  split
  · simp_all
  · split
    · simp_all
    · split <;> simp_all

theorem checkFields_eq_ok : s.checkFields k fs = .ok () ↔
    ∀ n f, fs[n]? = some f → s.checkField (k + n) f = .ok () := by
  induction fs generalizing k with
  | nil => simp [checkFields]
  | cons g fs ih =>
    rw [checkFields, bind_eq_ok]
    constructor
    · rintro ⟨⟨⟩, hg, hfs⟩ n f hf
      cases n with
      | zero =>
        cases hf
        exact hg
      | succ n =>
        have hstep := ih.1 hfs n f hf
        rwa [Nat.add_right_comm] at hstep
    · intro h
      refine ⟨(), h 0 g rfl, ih.2 fun n f hf => ?_⟩
      have hstep := h (n + 1) f hf
      rwa [← Nat.add_assoc, Nat.add_right_comm] at hstep

theorem checkFields_of_validate (h : s.validate = .ok ()) : s.checkFields 0 s.fields = .ok () := by
  unfold validate at h
  split at h
  · cases h
  · obtain ⟨⟨⟩, hfields, -⟩ := bind_eq_ok.1 h
    exact hfields

theorem position?_of_validate (h : s.validate = .ok ()) (hf : s.fields[n]? = some f) :
    s.position? f.name = some n := by
  have hcheck := checkFields_eq_ok.1 (checkFields_of_validate h) n f hf
  rw [Nat.zero_add] at hcheck
  exact (checkField_eq_ok.1 hcheck).2.2

theorem checkValues_eq_ok : checkValues fs row = .ok () ↔
    ∀ p ∈ fs.zip row, p.1.check p.2 = .ok () := by
  induction fs generalizing row with
  | nil => simp [checkValues]
  | cons f fs ih =>
    cases row with
    | nil => simp [checkValues]
    | cons v vs =>
      rw [checkValues, bind_eq_ok, List.zip_cons_cons, List.forall_mem_cons, ← ih]
      constructor
      · rintro ⟨⟨⟩, hv, hvs⟩
        exact ⟨hv, hvs⟩
      · rintro ⟨hv, hvs⟩
        exact ⟨(), hv, hvs⟩

theorem checkRow_eq_ok : s.checkRow row = .ok () ↔ s.Conforms row := by
  rw [checkRow, Conforms, ← checkValues_eq_ok]
  split <;> simp_all

theorem Conforms.get?_none (h : s.Conforms row) (hf : s.fields[n]? = none) : row[n]? = none := by
  rw [List.getElem?_eq_none_iff] at hf ⊢
  rwa [h.1]

theorem Conforms.checkValue (h : s.Conforms row) (hf : s.fields[n]? = some f) :
    ∃ v, row[n]? = some v ∧ f.type.checkValue f.length v = .ok () := by
  have hn : n < row.length := by
    rw [h.1]
    exact (List.getElem?_eq_some_iff.1 hf).1
  have hv : row[n]? = some row[n] := List.getElem?_eq_getElem hn
  have hmem : (f, row[n]) ∈ s.fields.zip row :=
    List.mem_of_getElem? (List.getElem?_zip_eq_some.2 ⟨hf, hv⟩)
  have hcheck := h.2 _ hmem
  unfold FieldDecl.check at hcheck
  split at hcheck
  · cases hcheck
  · exact ⟨row[n], hv, hcheck⟩

end Isam.Schema
