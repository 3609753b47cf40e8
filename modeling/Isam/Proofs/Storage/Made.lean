import Isam.Proofs.Codec.TableFile
import Isam.Proofs.Storage.Keys
import Isam.Proofs.Storage.Rows
import Isam.Disk.Tree
namespace Isam.Image

/-- What checked writes and deletions make of the image of a new table. -/
inductive Made : Image → Prop
  | created {s : Schema} (valid : s.numbered.validate = .ok ()) : Made (.ofSchema s.numbered)
  | inserted {i : Image} {row : Row} (made : Made i) (conforms : i.schema.checkRow row = .ok ())
    (unique : i.duplicate? row none = none) (room : i.nextRow.toNat + 1 < UInt64.size) :
    Made (i.store none row).2
  | updated {i : Image} {id : RowId} {row : Row} (made : Made i)
    (stored : i.rows.contains id = true) (conforms : i.schema.checkRow row = .ok ())
    (unique : i.duplicate? row (some id) = none) : Made (i.store (some id) row).2
  | removed {i : Image} (made : Made i) (id : RowId) : Made (i.remove id)

variable {i j : Image} {x : Option RowId}

theorem Made.numbered (h : i.Made) : i.schema.numbered = i.schema := by
  induction h with
  | created => rfl
  | inserted _ _ _ _ ih | updated _ _ _ _ ih | removed _ _ ih => exact ih

theorem Made.valid (h : i.Made) : i.schema.validate = .ok () := by
  induction h with
  | created valid => exact valid
  | inserted _ _ _ _ ih | updated _ _ _ _ ih | removed _ _ ih => exact ih

theorem Made.keysUnique (h : i.Made) : i.KeysUnique := by
  induction h with
  | created => exact keysUnique_ofSchema _
  | inserted _ _ unique _ ih => exact ih.store unique
  | updated _ _ _ unique ih => exact ih.store unique
  | removed _ id ih => exact ih.remove id

theorem nextRow_store (row : Row) (room : i.nextRow.toNat + 1 < UInt64.size) :
    (i.store none row).2.nextRow.toNat = i.nextRow.toNat + 1 := by
  rw [UInt64.size] at room
  simp only [store, UInt64.toNat_add, UInt64.toNat_one]
  omega

theorem Made.one_le_nextRow (h : i.Made) : 1 ≤ i.nextRow.toNat := by
  induction h with
  | created => exact Nat.le_refl 1
  | inserted _ _ _ room ih => exact nextRow_store _ room ▸ Nat.le_succ_of_le ih
  | updated _ _ _ _ ih | removed _ _ ih => exact ih

theorem Made.numbers (h : i.Made) :
    ∀ id row, i.rows.get? id = some row → 1 ≤ id.toNat ∧ id.toNat < i.nextRow.toNat := by
  induction h with
  | created => exact fun id row hrow => by simp [ofSchema] at hrow
  | @inserted i row made _ _ room ih =>
    intro id old hold
    have hnext := nextRow_store row room
    simp only [store, Rows.get?_insert] at hold
    split at hold
    · rename_i hid
      have hfirst := made.one_le_nextRow
      rw [← hid, hnext]
      omega
    · have hid := ih id old hold
      omega
  | @updated i id row _ stored _ _ ih =>
    intro k old hold
    simp only [store, Rows.get?_insert] at hold
    split at hold
    · rename_i hid
      obtain ⟨before, hbefore⟩ := Option.isSome_iff_exists.1 stored
      exact hid ▸ ih id before hbefore
    · exact ih k old hold
  | removed _ id ih =>
    intro k old hold
    simp only [Image.remove, Rows.get?_erase] at hold
    split at hold
    · cases hold
    · exact ih k old hold

theorem Made.id_bounds (h : i.Made) {id : RowId} {row : Row} (hrow : i.rows.get? id = some row) :
    1 ≤ id ∧ id < i.nextRow := by
  rw [UInt64.le_iff_toNat_le, UInt64.lt_iff_toNat_lt, UInt64.toNat_one]
  exact h.numbers id row hrow

theorem Made.next_free (h : i.Made) : i.rows.get? i.nextRow = none := by
  cases hrow : i.rows.get? i.nextRow with
  | none => rfl
  | some row => exact absurd (h.id_bounds hrow).2 (UInt64.lt_irrefl _)

inductive Advances (i : Image) : Option RowId → Image → Prop
  | same : Advances i none i
  | inserted {row : Row} (conforms : i.schema.checkRow row = .ok ())
    (unique : i.duplicate? row none = none) (room : i.nextRow.toNat + 1 < UInt64.size) :
    Advances i (some i.nextRow) (i.store none row).2
  | updated {id : RowId} {row : Row} (stored : i.rows.contains id = true)
    (conforms : i.schema.checkRow row = .ok ()) (unique : i.duplicate? row (some id) = none) :
    Advances i none (i.store (some id) row).2
  | removed (id : RowId) : Advances i none (i.remove id)

structure Outgrows (i j : Image) : Prop where
  nextRow : i.nextRow ≤ j.nextRow
  gone : ∀ k, k < i.nextRow → i.rows.get? k = none → j.rows.get? k = none

theorem Outgrows.refl (i : Image) : i.Outgrows i := ⟨UInt64.le_refl _, fun _ _ h => h⟩

theorem Outgrows.trans {k : Image} (h : i.Outgrows j) (h' : j.Outgrows k) : i.Outgrows k := by
  constructor
  · exact UInt64.le_trans h.nextRow h'.nextRow
  · intro id hid hgone
    exact h'.gone id (UInt64.lt_of_lt_of_le hid h.nextRow) (h.gone id hid hgone)

theorem Advances.eq_nextRow {k : RowId} (h : i.Advances x j) (hx : x = some k) : k = i.nextRow := by
  cases h <;> cases hx
  rfl

theorem Advances.made (h : i.Advances x j) (made : i.Made) : j.Made := by
  cases h with
  | same => exact made
  | inserted conforms unique room => exact made.inserted conforms unique room
  | updated stored conforms unique => exact made.updated stored conforms unique
  | removed id => exact made.removed id

theorem Advances.lt_nextRow {k : RowId} (h : i.Advances x j) (hx : x = some k) : k < j.nextRow := by
  cases h with
  | @inserted row _ _ room =>
    cases hx
    rw [UInt64.lt_iff_toNat_lt, nextRow_store _ room]
    exact Nat.lt_succ_self _
  | same | updated | removed => cases hx

theorem Advances.outgrows (h : i.Advances x j) : i.Outgrows j := by
  cases h with
  | same => exact .refl i
  | @inserted row _ _ room =>
    constructor
    · rw [UInt64.le_iff_toNat_le, nextRow_store _ room]
      exact Nat.le_succ _
    · intro k hk hgone
      have hne : k ≠ i.nextRow := UInt64.ne_of_lt hk
      rw [get?_store_ne hne, hgone]
  | @updated id row stored =>
    refine ⟨UInt64.le_refl _, fun k _ hgone => ?_⟩
    have hne : k ≠ id := by
      rintro rfl
      rw [Rows.contains, hgone] at stored
      cases stored
    rw [get?_store_ne hne, hgone]
  | removed id =>
    refine ⟨UInt64.le_refl _, fun k _ hgone => ?_⟩
    by_cases hid : k = id
    · rw [hid, get?_remove_self]
    · rw [get?_remove_ne hid, hgone]

theorem Advances.stored {ids : List RowId} (h : i.Advances x j) (made : i.Made)
    (stored : i.rows.ids.Sublist ids) : j.rows.ids.Sublist (ids ++ x.toList) := by
  cases h with
  | same =>
    rw [Option.toList_none, List.append_nil]
    exact stored
  | @inserted row =>
    have habove : ∀ k ∈ i.rows.ids, k < i.nextRow := by
      intro k hk
      obtain ⟨row, hrow⟩ := Rows.mem_ids_iff.1 hk
      exact (made.id_bounds hrow).2
    have hids : (i.store none row).2.rows.ids = i.rows.ids ++ [i.nextRow] :=
      Rows.ids_insert_of_above habove
    rw [hids]
    exact stored.append (.refl _)
  | @updated id row hstored =>
    have hids : (i.store (some id) row).2.rows.ids = i.rows.ids :=
      Rows.ids_insert_of_mem (Rows.mem_ids_iff.2 (Option.isSome_iff_exists.1 hstored))
    rw [hids, Option.toList_none, List.append_nil]
    exact stored
  | removed id =>
    rw [Option.toList_none, List.append_nil]
    exact (i.rows.ids_erase_sublist id).trans stored

theorem count_lt_of_size (hsize : (TableFile.encode i).length < Disk.sizeLimit) :
    (Codec.putImage i).length < UInt64.size := by
  have hpayload := TableFile.payload_lt hsize
  rw [Disk.sizeLimit] at hpayload
  omega

theorem Made.decode_encode (h : i.Made) (hsize : (TableFile.encode i).length < Disk.sizeLimit)
    (verify : Bool) : TableFile.decode (TableFile.encode i) verify = .ok i := by
  have hvalid : i.schema.numbered.validate = .ok () := by
    rw [h.numbered]
    exact h.valid
  rw [TableFile.decode_encode (count_lt_of_size hsize) hvalid, h.numbered]

end Isam.Image
