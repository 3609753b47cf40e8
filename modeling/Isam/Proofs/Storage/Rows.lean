import Isam.Proofs.FiniteMap
import Isam.Storage.Rows
import Mathlib.Data.List.Perm.Basic
namespace Isam.Rows

variable {r s : Rows} {id k : RowId} {row : Row}

theorem get?_eq (r : Rows) (id : RowId) : r.get? id = FiniteMap.get? r.entries id := by
  simp only [get?, FiniteMap.get?, beq_eq_decide]

theorem nodup_ids (r : Rows) : r.ids.Nodup :=
  List.pairwise_map.2 (r.ascending.imp fun h => UInt64.ne_of_lt h)

theorem mem_entries_iff : (id, row) ∈ r.entries ↔ r.get? id = some row := by
  rw [get?_eq]
  exact FiniteMap.mem_iff_get? r.nodup_ids

theorem get?_insertEntry (es : List (RowId × Row)) :
    FiniteMap.get? (insertEntry id row es) k = if id = k then some row else FiniteMap.get? es k := by
  induction es with
  | nil => simp [insertEntry, FiniteMap.get?_cons, FiniteMap.get?_nil]
  | cons e es ih =>
    unfold insertEntry
    split
    · rw [FiniteMap.get?_cons]
    · split
      · rename_i he
        by_cases hk : id = k
        · simp [FiniteMap.get?_cons, hk]
        · simp [FiniteMap.get?_cons, hk, show e.1 ≠ k from he ▸ hk]
      · rename_i he
        rw [FiniteMap.get?_cons, FiniteMap.get?_cons, ih]
        by_cases hk : e.1 = k
        · simp [hk, show id ≠ k from fun h => he (h.trans hk.symm)]
        · simp [hk]

theorem get?_insert (r : Rows) (id k : RowId) (row : Row) :
    (r.insert id row).get? k = if id = k then some row else r.get? k := by
  rw [get?_eq, get?_eq]
  exact get?_insertEntry r.entries

theorem get?_erase (r : Rows) (id k : RowId) :
    (r.erase id).get? k = if id = k then none else r.get? k := by
  have h : (r.erase id).entries = FiniteMap.erase r.entries id := by
    simp only [erase, FiniteMap.erase, decide_not, ne_eq]
    congr 1
  rw [get?_eq, get?_eq, h, FiniteMap.get?_erase]

@[simp] theorem get?_empty (id : RowId) : empty.get? id = none := rfl

theorem ext_get? (h : ∀ id, r.get? id = s.get? id) : r = s := by
  have hr := r.ascending.imp fun hlt => fun he : _ = _ => UInt64.ne_of_lt hlt (congrArg Prod.fst he)
  have hs := s.ascending.imp fun hlt => fun he : _ = _ => UInt64.ne_of_lt hlt (congrArg Prod.fst he)
  have hperm : r.entries.Perm s.entries := by
    rw [List.perm_ext_iff_of_nodup hr hs]
    rintro ⟨id, row⟩
    rw [mem_entries_iff, mem_entries_iff, h]
  apply ext
  exact hperm.eq_of_pairwise
    (fun _ _ _ _ h₁ h₂ => absurd (UInt64.lt_trans h₁ h₂) (UInt64.lt_irrefl _))
    r.ascending s.ascending

theorem erase_insert (h : r.get? id = none) : (r.insert id row).erase id = r := by
  apply ext_get?
  intro k
  rw [get?_erase, get?_insert]
  split
  · rename_i hk
    rw [← hk, h]
  · rfl

theorem insert_insert {old : Row} (h : r.get? id = some old) :
    (r.insert id row).insert id old = r := by
  apply ext_get?
  intro k
  rw [get?_insert, get?_insert]
  split
  · rename_i hk
    rw [← hk, h]
  · rfl

theorem insert_erase (h : r.get? id = some row) : (r.erase id).insert id row = r := by
  apply ext_get?
  intro k
  rw [get?_insert, get?_erase]
  split
  · rename_i hk
    rw [← hk, h]
  · rfl

theorem get?_foldl_insert (es : List (RowId × Row)) (hes : (es.map (·.1)).Nodup) (k : RowId) :
    (es.foldl (fun r e => r.insert e.1 e.2) r).get? k =
      if k ∈ es.map (·.1) then FiniteMap.get? es k else r.get? k := by
  induction es generalizing r with
  | nil => simp
  | cons e es ih =>
    obtain ⟨he, hes⟩ := List.nodup_cons.1 hes
    rw [List.foldl_cons, ih hes, get?_insert, FiniteMap.get?_cons, List.map_cons]
    by_cases hk : k ∈ es.map (·.1)
    · have hne : e.1 ≠ k := by
        rintro rfl
        exact he hk
      rw [if_pos hk, if_pos (List.mem_cons_of_mem _ hk), if_neg hne]
    · by_cases hek : e.1 = k
      · rw [if_neg hk, if_pos hek, if_pos (hek ▸ List.mem_cons_self), if_pos hek]
      · have hmem : k ∉ e.1 :: es.map (·.1) := fun h =>
          (List.mem_cons.1 h).elim (fun h => hek h.symm) hk
        rw [if_neg hk, if_neg hek, if_neg hmem]

theorem insertEntry_of_above {es : List (RowId × Row)} (h : ∀ k ∈ es.map (·.1), k < id) :
    insertEntry id row es = es ++ [(id, row)] := by
  induction es with
  | nil => rfl
  | cons e es ih =>
    obtain ⟨he, hes⟩ := List.forall_mem_cons.1 h
    have hne : id ≠ e.1 := (UInt64.ne_of_lt he).symm
    rw [insertEntry, if_neg (UInt64.lt_asymm he), if_neg hne, ih hes, List.cons_append]

theorem keys_insertEntry_of_mem {es : List (RowId × Row)} (ascending : es.Pairwise (·.1 < ·.1))
    (h : id ∈ es.map (·.1)) : (insertEntry id row es).map (·.1) = es.map (·.1) := by
  induction es with
  | nil => cases h
  | cons e es ih =>
    obtain ⟨he, hes⟩ := List.pairwise_cons.1 ascending
    rcases List.mem_cons.1 h with rfl | h
    · rw [insertEntry, if_neg (UInt64.lt_irrefl _), if_pos rfl]
      rfl
    · obtain ⟨k, hk, rfl⟩ := List.mem_map.1 h
      have hlt := he k hk
      have hne : k.1 ≠ e.1 := (UInt64.ne_of_lt hlt).symm
      rw [insertEntry, if_neg (UInt64.lt_asymm hlt), if_neg hne, List.map_cons, ih hes h,
        List.map_cons]

theorem ids_insert_of_above (h : ∀ k ∈ r.ids, k < id) : (r.insert id row).ids = r.ids ++ [id] := by
  have hentries : (r.insert id row).entries = r.entries ++ [(id, row)] := insertEntry_of_above h
  rw [ids, hentries, List.map_append]
  rfl

theorem ids_insert_of_mem (h : id ∈ r.ids) : (r.insert id row).ids = r.ids :=
  keys_insertEntry_of_mem r.ascending h

theorem ids_erase_sublist (r : Rows) (id : RowId) : (r.erase id).ids.Sublist r.ids :=
  List.filter_sublist.map _

theorem mem_ids_iff : id ∈ r.ids ↔ ∃ row, r.get? id = some row := by
  rw [get?_eq]
  exact FiniteMap.mem_keys_iff

theorem ofEntries_entries (r : Rows) : ofEntries r.entries = r := by
  apply ext_get?
  intro id
  rw [ofEntries, get?_foldl_insert _ r.nodup_ids, get?_empty, ← get?_eq]
  split
  · rfl
  · rename_i hid
    rw [get?_eq, FiniteMap.get?_eq_none_iff.2 hid]

end Isam.Rows

namespace Isam

namespace Image

theorem takeBack_store (i : Image) (target : Option RowId) (row : Row) :
    (i.store target row).2.takeBack (i.store target row).1
      (i.rows.get? (i.store target row).1) i.nextRow = i := by
  have h (id : RowId) (n : RowId) : Image.takeBack ⟨i.schema, i.rows.insert id row, n⟩ id
      (i.rows.get? id) i.nextRow = i := by
    cases hg : i.rows.get? id with
    | none => simp [takeBack, remove, Rows.erase_insert hg]
    | some old => simp [takeBack, putBack, Rows.insert_insert hg]
  cases target with
  | none => exact h i.nextRow _
  | some id => exact h id _

theorem putBack_remove {i : Image} {id : RowId} {row : Row} (h : i.rows.get? id = some row) :
    (i.remove id).putBack id row = i := by
  simp [remove, putBack, Rows.insert_erase h]

variable {i : Image} {target : Option RowId} {row : Row} {j : RowId}

theorem get?_store_self : (i.store target row).2.rows.get? (i.store target row).1 = some row := by
  cases target <;> simp [store, Rows.get?_insert]

theorem get?_store_ne (h : j ≠ (i.store target row).1) :
    (i.store target row).2.rows.get? j = i.rows.get? j := by
  cases target <;> simp [store, Rows.get?_insert] at h ⊢ <;> exact fun hj => absurd hj.symm h

theorem store_schema : (i.store target row).2.schema = i.schema := by
  cases target <;> rfl

theorem get?_remove_self : (i.remove j).rows.get? j = none := by
  simp [remove, Rows.get?_erase]

theorem get?_remove_ne {k : RowId} (h : j ≠ k) : (i.remove k).rows.get? j = i.rows.get? j := by
  simp [remove, Rows.get?_erase, h.symm]

end Image
end Isam
