import Isam.Proofs.Client.Moves
import Isam.Proofs.Server.Images
namespace Isam

open FiniteMap

variable {h : Host} {q : Request} {i : Image} {row : Row}

namespace Image

def FullRows (i : Image) : Prop :=
  ∀ id row, i.rows.get? id = some row → row.length = i.schema.fields.length

/-- Rows are full and have numbers below the next one. A table file can hold other images. -/
structure Whole (i : Image) : Prop where
  full : i.FullRows
  below : ∀ id row, i.rows.get? id = some row → id < i.nextRow

theorem Whole.next_free (whole : i.Whole) : i.rows.get? i.nextRow = none := by
  cases hrow : i.rows.get? i.nextRow with
  | none => rfl
  | some row => exact absurd (whole.below _ row hrow) (UInt64.lt_irrefl _)

theorem FullRows.store (full : i.FullRows) (conforms : i.schema.checkRow row = .ok ())
    (target : Option RowId) : (i.store target row).2.FullRows := by
  have put (id : RowId) : ∀ k u, (i.rows.insert id row).get? k = some u →
      u.length = i.schema.fields.length := by
    intro k u hu
    rw [Rows.get?_insert] at hu
    split at hu
    · cases hu
      exact (Schema.checkRow_eq_ok.1 conforms).1
    · exact full k u hu
  cases target with
  | none => exact put i.nextRow
  | some id => exact put id

theorem FullRows.remove (full : i.FullRows) (id : RowId) : (i.remove id).FullRows := by
  intro k u hu
  rw [Image.remove, Rows.get?_erase] at hu
  split at hu
  · cases hu
  · exact full k u hu

theorem Whole.store {target : Option RowId} (whole : i.Whole)
    (conforms : i.schema.checkRow row = .ok ())
    (found : ∀ id, target = some id → i.rows.contains id = true)
    (room : target = none → i.nextRow.toNat + 1 < UInt64.size) :
    (i.store target row).2.Whole := by
  refine ⟨whole.full.store conforms target, ?_⟩
  cases target with
  | none =>
    have hnext : i.nextRow < (i.store none row).2.nextRow := by
      rw [UInt64.lt_iff_toNat_lt, nextRow_store row (room rfl)]
      exact Nat.lt_succ_self _
    intro k u hu
    by_cases hk : k = i.nextRow
    · rw [hk]
      exact hnext
    · rw [get?_store_ne hk] at hu
      exact UInt64.lt_trans (whole.below k u hu) hnext
  | some id =>
    intro k u hu
    by_cases hk : k = id
    · obtain ⟨old, hold⟩ := Option.isSome_iff_exists.1 (found id rfl)
      rw [hk]
      exact whole.below id old hold
    · rw [get?_store_ne hk] at hu
      exact whole.below k u hu

theorem Whole.remove (whole : i.Whole) (id : RowId) : (i.remove id).Whole := by
  refine ⟨whole.full.remove id, ?_⟩
  intro k u hu
  rw [Image.remove, Rows.get?_erase] at hu
  split at hu
  · cases hu
  · exact whole.below k u hu

end Image

theorem Source.fullRows (source : Source h q i) (old : h.Images Image.FullRows) : i.FullRows := by
  cases source with
  | kept file => exact old.opened _ _ file
  | created => exact nofun
  | decoded hl bytes decoded => exact old.stored _ _ _ _ hl bytes decoded
  | stored file conforms => exact (old.opened _ _ file).store conforms _
  | removed file id => exact (old.opened _ _ file).remove id

theorem Source.whole (source : Source h q i) (old : h.Images Image.Whole) : i.Whole := by
  cases source with
  | kept file => exact old.opened _ _ file
  | created => exact ⟨nofun, nofun⟩
  | decoded hl bytes decoded => exact old.stored _ _ _ _ hl bytes decoded
  | stored file conforms found room => exact (old.opened _ _ file).store conforms found room
  | removed file id => exact (old.opened _ _ file).remove id

namespace Host

theorem Images.fullRows_next (full : h.Images Image.FullRows) (inv : h.server.Registered)
    (e : Event) : (h.next e).Images Image.FullRows :=
  full.next inv (fun _ hi => hi) (fun _ _ source => source.fullRows full) e

theorem whole_run (config : EngineConfig) {disk : Disk} (es : List Event)
    (whole : ∀ l bs verify i, l.IsTable → disk.bytes? l = some bs →
      TableFile.decode bs verify = .ok i → i.Whole) :
    ((start config disk).run es).Images Image.Whole :=
  run_registered config disk es (images_start config whole) fun _ e inv whole =>
    whole.next inv (fun _ hi => ⟨hi.full, hi.below⟩) (fun _ _ source => source.whole whole) e

theorem Images.insertion (whole : h.Images Image.Whole) {id : HandleId} {k : RowId}
    (hk : (h.writeRow id none row).1 = .ok k) : ∃ i j, h.image? id = some i ∧
      (h.perform (.writeRow id none row)).image? id = some j ∧ i.rows.get? k = none ∧
      ∀ k', j.rows.get? k' = if k = k' then some row else i.rows.get? k' := by
  obtain ⟨x, f, ho, rfl, -, hj⟩ := writeRow_eq_ok (Prod.ext hk rfl)
  refine ⟨f.image, _, image?_eq_some.2 ⟨x, f, ho, rfl⟩, hj, ?_, ?_⟩
  · exact (whole.opened _ _ (Server.opened_eq_ok.1 ho).2).next_free
  · intro k'
    rw [Image.store, Rows.get?_insert]

end Host
end Isam
