import Isam.Field.Value
import Isam.Proofs.Storage.Rows
import Isam.Storage.Order
namespace Isam

namespace SegmentMode

theorem compare_swap (m : SegmentMode) (a b : Value) : m.compare b a = (m.compare a b).swap := by
  have h := Value.compareKey_swap m.ignoreCase a b
  unfold compare
  split <;> rw [h]

theorem compare_null (m : SegmentMode) (v : Value) : m.compare v .null = .eq ↔ v.isNull = true := by
  rw [← Value.compareKey_null m.ignoreCase]
  unfold compare
  split
  · exact Ordering.swap_eq_eq
  · rfl

end SegmentMode

namespace IndexDecl

theorem compareParts_swap (gs : List SegmentDecl) (as bs : Key) :
    compareParts gs bs as = (compareParts gs as bs).swap := by
  induction gs generalizing as bs with
  | nil => rfl
  | cons g gs ih =>
    cases as with
    | nil => cases bs <;> rfl
    | cons a as =>
      cases bs with
      | nil => rfl
      | cons b bs =>
        rw [compareParts, compareParts, Ordering.swap_then, ih as bs, g.mode.compare_swap a b]

theorem all_isNull_of_compareParts {gs : List SegmentDecl} {as bs : Key}
    (ha : as.length = gs.length) (hb : bs.length = gs.length) (hbs : bs.all Value.isNull = true)
    (h : compareParts gs as bs = .eq) : as.all Value.isNull = true := by
  induction gs generalizing as bs with
  | nil =>
    rw [List.eq_nil_of_length_eq_zero ha]
    rfl
  | cons g gs ih =>
    obtain ⟨a, as, rfl⟩ := List.exists_cons_of_length_eq_add_one ha
    obtain ⟨b, bs, rfl⟩ := List.exists_cons_of_length_eq_add_one hb
    simp only [List.all_cons, Bool.and_eq_true] at hbs
    simp only [compareParts, Ordering.then_eq_eq] at h
    have hb0 : b = .null := by
      cases b <;> simp_all [Value.isNull]
    have ha0 := (g.mode.compare_null a).1 (hb0 ▸ h.1)
    have has := ih (Nat.succ.inj ha) (Nat.succ.inj hb) hbs.2 h.2
    rw [List.all_cons, ha0, has]
    rfl

end IndexDecl

open Image (keyOf)

/-- What a unique index asks of two rows: keys that it can tell apart, or else nulls that it allows. -/
def IndexDecl.Admits (d : IndexDecl) (s : Schema) (a b : Row) : Prop :=
  d.compareKeys (keyOf s d a) (keyOf s d b) = .eq →
    (keyOf s d a).all Value.isNull = true ∧ (keyOf s d b).all Value.isNull = true ∧
      d.allowNullKeys = true

def Schema.Admits (s : Schema) (a b : Row) : Prop :=
  ∀ d ∈ s.indexes, d.allowDuplicates = false → d.Admits s a b

theorem Schema.Admits.symm {s : Schema} {a b : Row} (h : s.Admits a b) : s.Admits b a := by
  intro d hd hunique heq
  have hab : d.compareKeys (keyOf s d a) (keyOf s d b) = .eq := by
    rw [IndexDecl.compareKeys, IndexDecl.compareParts_swap, Ordering.swap_eq_eq]
    exact heq
  obtain ⟨ha, hb, hnull⟩ := h d hd hunique hab
  exact ⟨hb, ha, hnull⟩

namespace Image

variable {i : Image} {d : IndexDecl} {row : Row} {target : Option RowId} {id : RowId}

theorem keyOf_length (s : Schema) (d : IndexDecl) (row : Row) :
    (keyOf s d row).length = d.segments.length := List.length_map _

theorem clash?_eq_none : i.clash? d row target = none ↔
    ∀ k old, i.rows.get? k = some old → some k ≠ target → d.Admits i.schema old row := by
  have hkey (old : Row) := keyOf_length i.schema d old
  unfold clash?
  simp only
  split
  · rename_i hnull
    simp only [Bool.and_eq_true] at hnull
    refine ⟨fun _ k old _ _ heq => ⟨?_, hnull.2, hnull.1⟩, fun _ => rfl⟩
    exact IndexDecl.all_isNull_of_compareParts (hkey old) (hkey row) hnull.2 heq
  · rename_i hnull
    simp only [Bool.and_eq_true, not_and] at hnull
    rw [Option.map_eq_none_iff, List.find?_eq_none]
    constructor
    · intro h k old hold hk heq
      have hclash := h (k, old) (Rows.mem_entries_iff.2 hold)
      simp [hk, heq] at hclash
    · rintro h ⟨k, old⟩ hmem hclash
      simp only [Bool.and_eq_true, bne_iff_ne, ne_eq, beq_iff_eq] at hclash
      obtain ⟨-, hrow, hallow⟩ := h k old (Rows.mem_entries_iff.1 hmem) hclash.1 hclash.2
      exact hnull hallow hrow

theorem firstClash_eq_none {ds : List IndexDecl} : i.firstClash row target ds = none ↔
    ∀ d ∈ ds, d.allowDuplicates = false → i.clash? d row target = none := by
  induction ds with
  | nil => simp [firstClash]
  | cons d ds ih =>
    rw [firstClash, List.forall_mem_cons, ← ih]
    cases d.allowDuplicates <;> cases i.clash? d row target <;> simp

theorem duplicate?_eq_none : i.duplicate? row target = none ↔
    ∀ k old, i.rows.get? k = some old → some k ≠ target → i.schema.Admits old row := by
  rw [duplicate?, firstClash_eq_none]
  constructor
  · intro h k old hold hk d hd hunique
    exact clash?_eq_none.1 (h d hd hunique) k old hold hk
  · intro h d hd hunique
    exact clash?_eq_none.2 fun k old hold hk => h k old hold hk d hd hunique

def KeysUnique (i : Image) : Prop :=
  ∀ j k a b, i.rows.get? j = some a → i.rows.get? k = some b → j ≠ k → i.schema.Admits a b

theorem keysUnique_ofSchema (s : Schema) : (ofSchema s).KeysUnique := by
  intro j k a b ha
  simp [ofSchema] at ha

theorem KeysUnique.insert {n : RowId} (h : i.KeysUnique)
    (hrow : ∀ k old, i.rows.get? k = some old → k ≠ id → i.schema.Admits old row) :
    KeysUnique ⟨i.schema, i.rows.insert id row, n⟩ := by
  intro j k a b ha hb hne
  rw [Rows.get?_insert] at ha hb
  by_cases hj : id = j
  · have hk : id ≠ k := fun hk => hne (hj.symm.trans hk)
    rw [if_pos hj, Option.some.injEq] at ha
    rw [if_neg hk] at hb
    exact ha ▸ (hrow k b hb hk.symm).symm
  · rw [if_neg hj] at ha
    by_cases hk : id = k
    · rw [if_pos hk, Option.some.injEq] at hb
      exact hb ▸ hrow j a ha (Ne.symm hj)
    · rw [if_neg hk] at hb
      exact h j k a b ha hb hne

theorem KeysUnique.store (h : i.KeysUnique) (hfree : i.duplicate? row target = none) :
    (i.store target row).2.KeysUnique := by
  have hrow := duplicate?_eq_none.1 hfree
  cases target with
  | none => exact h.insert fun k old hold _ => hrow k old hold (by simp)
  | some id => exact h.insert fun k old hold hk => hrow k old hold (by simpa using hk)

theorem KeysUnique.remove (h : i.KeysUnique) (id : RowId) : (i.remove id).KeysUnique := by
  intro j k a b ha hb hne
  simp only [Image.remove, Rows.get?_erase] at ha hb
  split at ha
  · cases ha
  · split at hb
    · cases hb
    · exact h j k a b ha hb hne

def rowsWith (i : Image) (target : Option RowId) (row : Row) : List Row :=
  (i.rows.entries.filter fun e => some e.1 != target).map (·.2) ++ [row]

theorem KeysUnique.pairwise_others (h : i.KeysUnique) (target : Option RowId) :
    ((i.rows.entries.filter fun e => some e.1 != target).map (·.2)).Pairwise i.schema.Admits := by
  have hall : (i.rows.entries.map (·.2)).Pairwise i.schema.Admits := by
    rw [List.pairwise_map]
    refine i.rows.ascending.imp_of_mem ?_
    intro e f he hf hlt
    exact h e.1 f.1 e.2 f.2 (Rows.mem_entries_iff.1 he) (Rows.mem_entries_iff.1 hf)
      (UInt64.ne_of_lt hlt)
  exact hall.sublist (List.filter_sublist.map _)

theorem KeysUnique.pairwise_rowsWith (h : i.KeysUnique) :
    (i.rowsWith target row).Pairwise i.schema.Admits ↔ i.duplicate? row target = none := by
  rw [duplicate?_eq_none, rowsWith, List.pairwise_append]
  constructor
  · rintro ⟨-, -, hrow⟩ k old hold hk
    refine hrow old (List.mem_map.2 ⟨(k, old), ?_, rfl⟩) row (List.mem_singleton_self row)
    exact List.mem_filter.2 ⟨Rows.mem_entries_iff.2 hold, by simpa using hk⟩
  · intro hrow
    refine ⟨h.pairwise_others target, List.pairwise_singleton _ _, ?_⟩
    intro old hold new hnew
    obtain ⟨⟨k, old⟩, hmem, rfl⟩ := List.mem_map.1 hold
    obtain ⟨hmem, hk⟩ := List.mem_filter.1 hmem
    rw [List.mem_singleton.1 hnew]
    exact hrow k old (Rows.mem_entries_iff.1 hmem) (by simpa using hk)

theorem KeysUnique.store_iff (h : i.KeysUnique)
    (free : target = none → i.rows.get? i.nextRow = none) :
    (i.store target row).2.KeysUnique ↔ i.duplicate? row target = none := by
  refine ⟨fun hstored => duplicate?_eq_none.2 ?_, h.store⟩
  intro k old hold hk
  cases target with
  | none =>
    have hne : i.nextRow ≠ k := by
      intro heq
      rw [← heq, free rfl] at hold
      cases hold
    refine hstored k i.nextRow old row ?_ ?_ hne.symm
    · simp [Image.store, Rows.get?_insert, hne, hold]
    · simp [Image.store, Rows.get?_insert]
  | some id =>
    have hne : id ≠ k := fun heq => hk (congrArg some heq.symm)
    refine hstored k id old row ?_ ?_ hne.symm
    · simp [Image.store, Rows.get?_insert, hne, hold]
    · simp [Image.store, Rows.get?_insert]

end Image
end Isam
