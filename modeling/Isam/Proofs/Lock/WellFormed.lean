import Isam.Proofs.Lock.Table
namespace Isam

open FiniteMap

inductive LockCall
  | acquire (o : ConnectionId) (r : LockResource) (k : LockKind)
  | release (o : ConnectionId) (r : LockResource)
  | releaseAll (o : ConnectionId)
  | releaseRows (o : ConnectionId) (file : FileId)

namespace LockTable

variable {t u : LockTable} {o p : ConnectionId} {r q : LockResource} {k : LockKind} {x : Holder}
  {file : FileId}

def after (t : LockTable) : LockCall → LockTable
  | .acquire o r k => (t.acquire o r k).2
  | .release o r => (t.release o r).2
  | .releaseAll o => t.releaseAll o
  | .releaseRows o file => t.releaseRows o file

def run (t : LockTable) (cs : List LockCall) : LockTable := cs.foldl after t

structure Compatible (t : LockTable) : Prop where
  distinct : (keys t.holders).Nodup
  occupied : ∀ r, get? t.holders r ≠ some []
  once : ∀ r, ((t.holdersOf r).map (·.1)).Nodup
  alone : ∀ r o, (o, .exclusive) ∈ t.holdersOf r → t.holdersOf r = [(o, .exclusive)]

theorem compatible_empty : empty.Compatible where
  distinct := List.nodup_nil
  occupied r h := by simp [empty, get?] at h
  once r := List.nodup_nil
  alone r o h := by simp [empty, holdersOf, get?] at h

theorem Compatible.of_holders (h : t.Compatible) (he : u.holders = t.holders) : u.Compatible := by
  have hof (r : LockResource) : u.holdersOf r = t.holdersOf r := by rw [holdersOf, he, holdersOf]
  refine ⟨he ▸ h.distinct, he ▸ h.occupied, fun r => ?_, fun r o => ?_⟩
  · rw [hof]
    exact h.once r
  · rw [hof]
    exact h.alone r o

theorem conflictingHolder?_eq_none : t.conflictingHolder? o r k = none ↔
    ∀ x ∈ t.holdersOf r, x.1 ≠ o → x.2 = .shared ∧ k = .shared := by
  simp only [conflictingHolder?, conflict?, List.find?_eq_none, Bool.and_eq_true, bne_iff_ne,
    not_and]
  refine forall_congr' fun x => forall_congr' fun _ => forall_congr' fun _ => ?_
  cases x.2 <;> cases k <;> decide

theorem Compatible.grant (h : t.Compatible) (free : t.conflictingHolder? o r k = none) :
    (t.grant o r k).Compatible where
  distinct := nodup_keys_set h.distinct _ _
  occupied q := by
    rw [LockTable.grant, get?_set]
    split
    · simp
    · exact h.occupied q
  once q := by
    rw [holdersOf_grant]
    split
    · rw [List.map_append, List.nodup_append]
      refine ⟨(h.once q).sublist (List.filter_sublist.map _), List.nodup_singleton o, ?_⟩
      intro a ha b hb heq
      obtain ⟨x, hx, rfl⟩ := List.mem_map.1 ha
      exact (mem_without.1 hx).2 (heq.trans (List.mem_singleton.1 hb))
    · exact h.once q
  alone q p hp := by
    rw [conflictingHolder?_eq_none] at free
    rw [holdersOf_grant] at hp ⊢
    split at hp
    · rename_i hrq
      subst hrq
      rw [if_pos rfl]
      rcases List.mem_append.1 hp with hp | hp
      · obtain ⟨hmem, hne⟩ := mem_without.1 hp
        cases (free _ hmem hne).1
      · -- where an exclusive lock is granted, nobody else is left
        cases List.mem_singleton.1 hp
        have hnone : without (t.holdersOf r) o = [] := by
          refine List.eq_nil_iff_forall_not_mem.2 fun x hx => ?_
          obtain ⟨hmem, hne⟩ := mem_without.1 hx
          cases (free x hmem hne).2
        rw [hnone, List.nil_append]
    · rename_i hrq
      rw [if_neg hrq]
      exact h.alone q p hp

theorem Compatible.dropHolder (h : t.Compatible) : (t.dropHolder o r).Compatible where
  distinct := by
    unfold LockTable.dropHolder
    simp only
    split
    · exact nodup_keys_erase h.distinct r
    · exact nodup_keys_set h.distinct r _
  occupied q := by
    unfold LockTable.dropHolder
    simp only
    split
    · rw [get?_erase]
      split
      · exact (Option.some_ne_none []).symm
      · exact h.occupied q
    · rename_i hs
      rw [get?_set]
      split
      · intro heq
        exact hs (List.isEmpty_iff.2 (Option.some.inj heq))
      · exact h.occupied q
  once q := by
    rw [holdersOf_dropHolder]
    split
    · exact (h.once q).sublist (List.filter_sublist.map _)
    · exact h.once q
  alone q p hp := by
    rw [holdersOf_dropHolder] at hp ⊢
    split at hp
    · rename_i hrq
      obtain ⟨hmem, hne⟩ := mem_without.1 hp
      rw [if_pos hrq, h.alone q p hmem]
      simpa [without] using hne
    · rename_i hrq
      rw [if_neg hrq]
      exact h.alone q p hp

theorem Compatible.releaseEach (h : t.Compatible) (rs : List LockResource) :
    (t.releaseEach o rs).Compatible := by
  have hdrop : (rs.foldl (fun t r => t.dropHolder o r) t).Compatible := by
    induction rs generalizing t with
    | nil => exact h
    | cons r rs ih => exact ih h.dropHolder
  unfold LockTable.releaseEach
  simp only
  split
  · exact hdrop.of_holders rfl
  · exact hdrop

structure WellFormed (t : LockTable) : Prop extends Compatible t where
  owners : (keys t.owned).Nodup
  listed : ∀ o, (t.ownedBy o).Nodup
  indexed : t.Indexed

theorem wellFormed_empty : empty.WellFormed where
  toCompatible := compatible_empty
  owners := List.nodup_nil
  listed _ := List.nodup_nil
  indexed := indexed_empty

theorem WellFormed.grant (h : t.WellFormed) (free : t.conflictingHolder? o r k = none) :
    (t.grant o r k).WellFormed where
  toCompatible := h.toCompatible.grant free
  owners := nodup_keys_set h.owners _ _
  listed p := by
    rw [ownedBy_grant]
    split
    · refine List.nodup_append.2 ⟨(h.listed p).filter _, List.nodup_singleton r, ?_⟩
      intro a ha b hb heq
      have hne : a ≠ r := by simpa using (List.mem_filter.1 ha).2
      exact hne (heq.trans (List.mem_singleton.1 hb))
    · exact h.listed p
  indexed := h.indexed.grant

theorem WellFormed.acquire (h : t.WellFormed) : (t.acquire o r k).2.WellFormed := by
  rw [acquire_eq]
  cases hc : t.conflictingHolder? o r k with
  | none => exact h.grant hc
  | some x => exact h

theorem WellFormed.release (h : t.WellFormed) : (t.release o r).2.WellFormed where
  toCompatible := h.toCompatible.dropHolder.of_holders release_holders
  owners := by
    rw [release_owned]
    split
    · exact nodup_keys_set h.owners o _
    · exact h.owners
  listed p := by
    rw [ownedBy_release]
    split
    · exact (h.listed p).filter _
    · exact h.listed p
  indexed := h.indexed.release

theorem WellFormed.releaseAll (h : t.WellFormed) : (t.releaseAll o).WellFormed where
  toCompatible := by
    have howned : Compatible { t with owned := erase t.owned o } := h.toCompatible.of_holders rfl
    exact howned.releaseEach _
  owners := by
    rw [LockTable.releaseAll, releaseEach_owned]
    exact nodup_keys_erase h.owners o
  listed p := by
    rw [ownedBy_releaseAll]
    split
    · exact List.nodup_nil
    · exact h.listed p
  indexed := h.indexed.releaseAll

theorem WellFormed.releaseRows (h : t.WellFormed) : (t.releaseRows o file).WellFormed where
  toCompatible := by
    unfold LockTable.releaseRows
    split
    · exact h.toCompatible
    · rename_i rs _
      let kept := rs.filter fun r => !r.isRowOf file
      have howned : Compatible { t with owned := set t.owned o kept } :=
        h.toCompatible.of_holders rfl
      exact howned.releaseEach _
  owners := by
    unfold LockTable.releaseRows
    split
    · exact h.owners
    · rw [releaseEach_owned]
      exact nodup_keys_set h.owners o _
  listed p := by
    rw [ownedBy_releaseRows]
    split
    · exact (h.listed p).filter _
    · exact h.listed p
  indexed := h.indexed.releaseRows

theorem WellFormed.after (h : t.WellFormed) (c : LockCall) : (t.after c).WellFormed := by
  cases c with
  | acquire => exact h.acquire
  | release => exact h.release
  | releaseAll => exact h.releaseAll
  | releaseRows => exact h.releaseRows

theorem WellFormed.run (h : t.WellFormed) (cs : List LockCall) : (t.run cs).WellFormed := by
  induction cs generalizing t with
  | nil => exact h
  | cons c cs ih => exact ih (h.after c)

end LockTable
end Isam
