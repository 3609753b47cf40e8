import Isam.Proofs.Field.Order
import Isam.Proofs.Schema.Valid
import Isam.Proofs.Storage.Keys
import Mathlib.Data.List.Forall2
namespace Isam

open Image (keyOf)

theorem SegmentMode.compare_composes {m : SegmentMode} {a b c : Value} (hab : a.Alike b)
    (hbc : b.Alike c) (hac : a.Alike c) :
    Composes (m.compare a b) (m.compare b c) (m.compare a c) := by
  have h := Value.compareKey_composes m.ignoreCase hab hbc hac
  unfold compare
  split
  · exact h.swap
  · exact h

namespace IndexDecl

def physical : IndexDecl := { name := "", kind := .fixed }

theorem compareParts_composes {as bs cs : Key} (gs : List SegmentDecl)
    (hab : List.Forall₂ Value.Alike as bs) (hbc : List.Forall₂ Value.Alike bs cs)
    (hac : List.Forall₂ Value.Alike as cs) :
    Composes (compareParts gs as bs) (compareParts gs bs cs) (compareParts gs as cs) := by
  induction gs generalizing as bs cs with
  | nil => exact ⟨fun _ => rfl, fun _ => rfl, fun _ => rfl⟩
  | cons g gs ih =>
    cases hab with
    | nil =>
      cases hbc
      exact ⟨fun _ => rfl, fun _ => rfl, fun _ => rfl⟩
    | cons hab habs =>
      obtain _ | ⟨hbc, hbcs⟩ := hbc
      obtain _ | ⟨hac, hacs⟩ := hac
      exact (SegmentMode.compare_composes hab hbc hac).andThen (ih habs hbcs hacs)

theorem compareKeys_self (d : IndexDecl) (k : Key) : d.compareKeys k k = .eq := by
  have h := compareParts_swap d.segments k k
  unfold compareKeys
  cases hk : compareParts d.segments k k with
  | eq => rfl
  | lt | gt =>
    rw [hk] at h
    cases h

end IndexDecl

namespace Schema

variable {s : Schema} {d : IndexDecl} {a b c a' b' : RowId × Row} {index : Option Nat}

def order? (s : Schema) : Option Nat → Option IndexDecl
  | none => some .physical
  | some n => s.indexes[n]?

def compareEntries (s : Schema) (d : IndexDecl) (a b : RowId × Row) : Ordering :=
  (d.compareKeys (keyOf s d a.2) (keyOf s d b.2)).then (compare a.1 b.1)

def Precedes (s : Schema) (d : IndexDecl) (a b : RowId × Row) : Prop :=
  s.compareEntries d a b = .lt

instance (s : Schema) (d : IndexDecl) (a b : RowId × Row) : Decidable (s.Precedes d a b) :=
  inferInstanceAs (Decidable (_ = _))

structure SamePlace (s : Schema) (d : IndexDecl) (a b : RowId × Row) : Prop where
  id : a.1 = b.1
  key : d.compareKeys (keyOf s d a.2) (keyOf s d b.2) = .eq

theorem alike_at {a b : Row} (ha : s.Conforms a) (hb : s.Conforms b) (n : Nat) :
    ((a[n]?).getD .null).Alike ((b[n]?).getD .null) := by
  cases hf : s.fields[n]? with
  | none =>
    rw [ha.get?_none hf, hb.get?_none hf]
    exact fun _ => rfl
  | some f =>
    obtain ⟨v, hv, hcheck⟩ := ha.checkValue hf
    obtain ⟨w, hw, hcheck'⟩ := hb.checkValue hf
    rw [hv, hw]
    exact Value.alike_of_checkValue hcheck hcheck'

theorem alike_keyOf {a b : Row} (ha : s.Conforms a) (hb : s.Conforms b) :
    List.Forall₂ Value.Alike (keyOf s d a) (keyOf s d b) := by
  unfold keyOf
  rw [List.forall₂_map_left_iff, List.forall₂_map_right_iff, List.forall₂_same]
  intro g hg
  cases s.position? g.field with
  | none => exact fun _ => rfl
  | some n => exact alike_at ha hb n

theorem compareEntries_composes (ha : s.Conforms a.2) (hb : s.Conforms b.2) (hc : s.Conforms c.2) :
    Composes (s.compareEntries d a b) (s.compareEntries d b c) (s.compareEntries d a c) :=
  (IndexDecl.compareParts_composes d.segments (alike_keyOf ha hb) (alike_keyOf hb hc)
    (alike_keyOf ha hc)).andThen (.of_compare _ _ _)

theorem compareEntries_swap (a b : RowId × Row) :
    s.compareEntries d b a = (s.compareEntries d a b).swap := by
  unfold compareEntries IndexDecl.compareKeys
  rw [Ordering.swap_then, ← IndexDecl.compareParts_swap, ← Std.OrientedOrd.eq_swap]

theorem id_eq_of_compareEntries (h : s.compareEntries d a b = .eq) : a.1 = b.1 :=
  Std.LawfulEqOrd.eq_of_compare (Ordering.then_eq_eq.1 h).2

theorem SamePlace.compareEntries_eq (h : s.SamePlace d a b) : s.compareEntries d a b = .eq := by
  rw [compareEntries, h.key, h.id]
  exact Std.ReflOrd.compare_self

theorem SamePlace.refl (a : RowId × Row) : s.SamePlace d a a := ⟨rfl, d.compareKeys_self _⟩

theorem SamePlace.trans (ha : s.Conforms a.2) (hb : s.Conforms b.2) (hc : s.Conforms c.2)
    (hab : s.SamePlace d a b) (hbc : s.SamePlace d b c) : s.SamePlace d a c where
  id := hab.id.trans hbc.id
  key := ((IndexDecl.compareParts_composes d.segments (alike_keyOf ha hb) (alike_keyOf hb hc)
    (alike_keyOf ha hc)).left hab.key).trans hbc.key

theorem Precedes.trans (ha : s.Conforms a.2) (hb : s.Conforms b.2) (hc : s.Conforms c.2)
    (hab : s.Precedes d a b) (hbc : s.Precedes d b c) : s.Precedes d a c :=
  ((compareEntries_composes ha hb hc).same (Eq.trans hab (Eq.symm hbc))).trans hab

theorem Precedes.not_self : ¬ s.Precedes d a a := by
  intro h
  rw [Precedes, (SamePlace.refl a).compareEntries_eq] at h
  cases h

theorem Precedes.asymm (h : s.Precedes d a b) : ¬ s.Precedes d b a := by
  intro hba
  rw [Precedes, compareEntries_swap, h] at hba
  cases hba

theorem SamePlace.precedes_iff (ha : s.Conforms a.2) (hb : s.Conforms b.2) (hc : s.Conforms c.2)
    (h : s.SamePlace d a b) : s.Precedes d a c ↔ s.Precedes d b c := by
  rw [Precedes, Precedes, (compareEntries_composes ha hb hc).left h.compareEntries_eq]

theorem SamePlace.iff_precedes (ha : s.Conforms a.2) (hb : s.Conforms b.2) (hc : s.Conforms c.2)
    (h : s.SamePlace d a b) : s.Precedes d c a ↔ s.Precedes d c b := by
  rw [Precedes, Precedes, (compareEntries_composes hc ha hb).right h.compareEntries_eq]

end Schema

theorem pairwise_mergeSort_of {α : Type} {P : α → Prop} {le : α → α → Bool} {l : List α}
    (trans : ∀ a b c, P a → P b → P c → le a b = true → le b c = true → le a c = true)
    (total : ∀ a b, P a → P b → (le a b || le b a) = true) (hl : ∀ a ∈ l, P a) :
    (l.mergeSort le).Pairwise fun a b => le a b = true := by
  -- sorted among what has the property, as the relation need not order anything else
  let sub (a b : Subtype P) : Bool := le a.1 b.1
  have hmap : ((l.attachWith P hl).mergeSort sub).map Subtype.val = l.mergeSort le := by
    rw [List.map_mergeSort (s := le) fun _ _ _ _ => rfl, List.attachWith_map_subtype_val]
  rw [← hmap, List.pairwise_map]
  apply List.pairwise_mergeSort
  · intro a b c
    exact trans a b c a.2 b.2 c.2
  · intro a b
    exact total a b a.2 b.2

namespace Image

variable {i : Image} {d : IndexDecl} {index : Option Nat} {a b e : RowId × Row} {id : RowId}
  {front back : List (RowId × Row)}

def Conforming (i : Image) : Prop := ∀ e ∈ i.rows.entries, i.schema.Conforms e.2

def inOrder (i : Image) (d : IndexDecl) : List (RowId × Row) :=
  i.rows.entries.mergeSort fun a b => i.schema.compareEntries d a b != .gt

theorem mem_inOrder : e ∈ i.inOrder d ↔ e ∈ i.rows.entries := List.mem_mergeSort

theorem nodup_inOrder : ((i.inOrder d).map (·.1)).Nodup := by
  have hperm : (i.inOrder d).Perm i.rows.entries := List.mergeSort_perm _ _
  have hnodup : (i.rows.entries.map (·.1)).Nodup := i.rows.nodup_ids
  exact (hperm.map _).nodup_iff.2 hnodup

theorem keyedRows_eq (i : Image) (d : IndexDecl) :
    i.keyedRows d = (i.inOrder d).map fun e => (keyOf i.schema d e.2, e.1) :=
  (List.map_mergeSort (s := entryLe d) fun _ _ _ _ => rfl).symm

theorem indexAt_eq {n : Nat} (hindex : i.schema.indexes[n]? = some d) : i.indexAt n = .ok d := by
  rw [indexAt, hindex]

theorem orderedRows_eq (active : i.schema.order? index = some d) :
    i.orderedRows index = .ok ((i.inOrder d).map (·.1)) := by
  cases index with
  | none =>
    cases active
    have hsorted : i.inOrder .physical = i.rows.entries := by
      apply List.mergeSort_of_pairwise
      refine i.rows.ascending.imp fun h => ?_
      have hlt := Std.compare_eq_lt.2 h
      simp [Schema.compareEntries, IndexDecl.compareKeys, IndexDecl.physical,
        IndexDecl.compareParts, hlt]
    rw [hsorted]
    rfl
  | some n =>
    rw [orderedRows, indexAt_eq active]
    simp only [bind, Except.bind, pure, Except.pure, keyedRows_eq, List.map_map]
    rfl

theorem orderedRows_perm {ids : List RowId} (hids : i.orderedRows index = .ok ids) :
    ids.Perm i.rows.ids := by
  cases index with
  | none =>
    cases hids
    exact .refl _
  | some n =>
    obtain ⟨d, -, ⟨⟩⟩ := bind_eq_ok.1 hids
    have hperm := (List.mergeSort_perm (i.rows.entries.map fun e => (keyOf i.schema d e.2, e.1))
      (entryLe d)).map (·.2)
    rwa [List.map_map] at hperm

theorem orderedRows_eq_nil {ids : List RowId} (hids : i.orderedRows index = .ok ids) :
    ids = [] ↔ i.rows.entries = [] := by
  rw [← List.length_eq_zero_iff, (orderedRows_perm hids).length_eq, Rows.ids, List.length_map,
    List.length_eq_zero_iff]

theorem inOrder_ascending (conforming : i.Conforming) :
    (i.inOrder d).Pairwise (i.schema.Precedes d) := by
  have hsorted : (i.inOrder d).Pairwise fun a b =>
      (i.schema.compareEntries d a b != .gt) = true := by
    apply pairwise_mergeSort_of (P := fun e => i.schema.Conforms e.2)
    · intro a b c ha hb hc hab hbc
      rw [bne_iff_ne] at hab hbc ⊢
      exact (Schema.compareEntries_composes ha hb hc).not_gt hab hbc
    · intro a b ha hb
      rw [Schema.compareEntries_swap a b]
      cases i.schema.compareEntries d a b <;> rfl
    · exact conforming
  have hdistinct := List.pairwise_map.1 (nodup_inOrder (i := i) (d := d))
  refine (hsorted.and hdistinct).imp fun h => ?_
  obtain ⟨hle, hne⟩ := h
  rename_i a b
  cases hab : i.schema.compareEntries d a b with
  | lt => exact hab
  | eq => exact absurd (Schema.id_eq_of_compareEntries hab) hne
  | gt =>
    rw [hab] at hle
    cases hle

theorem inOrder_eq {l : List (RowId × Row)} (conforming : i.Conforming)
    (hperm : i.rows.entries.Perm l) (hsorted : l.Pairwise (i.schema.Precedes d)) :
    i.inOrder d = l := by
  have hperm' : (i.inOrder d).Perm l := (List.mergeSort_perm _ _).trans hperm
  apply hperm'.eq_of_pairwise _ (inOrder_ascending conforming) hsorted
  intro a b _ _ hab hba
  exact absurd hba hab.asymm

def First (i : Image) (d : IndexDecl) (P : RowId × Row → Prop) : Option (RowId × Row) → Prop
  | none => ∀ b ∈ i.rows.entries, ¬ P b
  | some a => a ∈ i.rows.entries ∧ P a ∧
      ∀ b ∈ i.rows.entries, P b → b = a ∨ i.schema.Precedes d a b

theorem First.congr {P Q : RowId × Row → Prop} {a? : Option (RowId × Row)}
    (hPQ : ∀ b ∈ i.rows.entries, P b ↔ Q b) (h : i.First d P a?) : i.First d Q a? := by
  cases a? with
  | none => exact fun b hb hQ => h b hb ((hPQ b hb).2 hQ)
  | some a =>
    obtain ⟨hmem, hP, hleast⟩ := h
    exact ⟨hmem, (hPQ a hmem).1 hP, fun b hb hQ => hleast b hb ((hPQ b hb).2 hQ)⟩

theorem first_of_inOrder {P : RowId × Row → Prop} (conforming : i.Conforming)
    (h : i.inOrder d = front ++ back) (hfront : ∀ b ∈ front, ¬ P b) (hback : ∀ b ∈ back, P b) :
    i.First d P back.head? := by
  have hsorted := inOrder_ascending (d := d) conforming
  have hmem (b : RowId × Row) : b ∈ i.rows.entries ↔ b ∈ front ∨ b ∈ back := by
    rw [← mem_inOrder (d := d), h, List.mem_append]
  rw [h, List.pairwise_append] at hsorted
  cases back with
  | nil =>
    intro b hb
    rcases (hmem b).1 hb with hb | hb
    · exact hfront b hb
    · cases hb
  | cons a back =>
    refine ⟨(hmem a).2 (.inr List.mem_cons_self), hback a List.mem_cons_self, fun b hb hP => ?_⟩
    rcases (hmem b).1 hb with hb | hb
    · exact absurd hP (hfront b hb)
    · rcases List.mem_cons.1 hb with rfl | hb
      · exact .inl rfl
      · exact .inr ((List.pairwise_cons.1 hsorted.2.1).1 b hb)

theorem idxOf?_append {ids ids' : List RowId} (h : id ∉ ids) :
    (ids ++ id :: ids').idxOf? id = some ids.length := by
  induction ids with
  | nil => simp [List.idxOf?_cons]
  | cons n ids ih =>
    simp only [List.mem_cons, not_or] at h
    simp [List.idxOf?_cons, ih h.2, Ne.symm h.1]

theorem successor?_append {ids ids' : List RowId} (h : id ∉ ids) :
    successor? (ids ++ id :: ids') id = some ids'.head? := by
  rw [successor?, idxOf?_append h, Option.map_some, List.getElem?_append_right (by omega),
    List.head?_eq_getElem?, Nat.add_sub_cancel_left]
  rfl

theorem predecessor?_append {ids ids' : List RowId} (h : id ∉ ids) :
    predecessor? (ids ++ id :: ids') id = some ids.getLast? := by
  rw [predecessor?, idxOf?_append h, Option.map_some, List.getLast?_eq_getElem?]
  cases ids with
  | nil => rfl
  | cons n ids =>
    rw [if_neg (by simp), List.getElem?_append_left (by simp)]

theorem moveTo_first (conforming : i.Conforming) (active : i.schema.order? index = some d) :
    ∃ a?, i.moveTo index .first = .ok (a?.map (·.1)) ∧ i.First d (fun _ => True) a? := by
  refine ⟨(i.inOrder d).head?, ?_, ?_⟩
  · rw [moveTo, orderedRows_eq active]
    simp only [bind, Except.bind, pure, Except.pure, List.head?_map]
  · have hsplit : i.inOrder d = [] ++ i.inOrder d := rfl
    exact first_of_inOrder conforming hsplit (fun _ hb => nomatch hb) fun _ _ => trivial

theorem moveTo_next (conforming : i.Conforming) (active : i.schema.order? index = some d)
    (he : e ∈ i.rows.entries) : ∃ a?, i.moveTo index (.next e.1) = .ok (a?.map (·.1)) ∧
      i.First d (i.schema.Precedes d e) a? := by
  obtain ⟨front, back, hsplit⟩ := List.append_of_mem (mem_inOrder.2 he : e ∈ i.inOrder d)
  have hnodup := nodup_inOrder (i := i) (d := d)
  have hsorted := inOrder_ascending (d := d) conforming
  rw [hsplit] at hsorted
  rw [hsplit, List.map_append, List.map_cons, List.nodup_append] at hnodup
  have hfront : e.1 ∉ front.map (·.1) := by
    intro hmem
    exact hnodup.2.2 _ hmem _ List.mem_cons_self rfl
  rw [List.pairwise_append, List.pairwise_cons] at hsorted
  obtain ⟨-, ⟨hback, -⟩, hbefore⟩ := hsorted
  refine ⟨back.head?, ?_, ?_⟩
  · rw [moveTo, orderedRows_eq active, hsplit, List.map_append, List.map_cons]
    simp only [bind, Except.bind, successor?_append hfront, List.head?_map, pure, Except.pure]
  · have hsplit' : i.inOrder d = (front ++ [e]) ++ back := by
      rw [hsplit, List.append_assoc, List.singleton_append]
    apply first_of_inOrder conforming hsplit'
    · intro b hb
      rcases List.mem_append.1 hb with hb | hb
      · exact (hbefore b hb e List.mem_cons_self).asymm
      · rw [List.mem_singleton.1 hb]
        exact Schema.Precedes.not_self
    · exact hback

theorem moveTo_of_not_mem {ids : List RowId} (hids : i.orderedRows index = .ok ids)
    (hid : id ∉ ids) : i.moveTo index (.next id) = .error (.noRow id) ∧
      i.moveTo index (.prev id) = .error (.noRow id) := by
  have hnone := List.idxOf?_eq_none_iff.2 hid
  constructor
  · rw [moveTo, hids]
    simp only [bind, Except.bind, successor?, hnone]
    rfl
  · rw [moveTo, hids]
    simp only [bind, Except.bind, predecessor?, hnone]
    rfl

theorem moveTo_next_gone (active : i.schema.order? index = some d) (gone : i.rows.get? id = none) :
    i.moveTo index (.next id) = .error (.noRow id) := by
  refine (moveTo_of_not_mem (orderedRows_eq active) fun hmem => ?_).1
  obtain ⟨e, he, rfl⟩ := List.mem_map.1 hmem
  have hrow := Rows.mem_entries_iff.1 (mem_inOrder.1 he)
  rw [gone] at hrow
  cases hrow

end Image
end Isam
