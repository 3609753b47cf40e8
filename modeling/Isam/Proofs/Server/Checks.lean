import Isam.Server.Engine
import Isam.Proofs.FiniteMap
import Isam.Error
namespace Isam

namespace Server

variable {s : Server} {c : ConnectionId} {id : HandleId} {target : Option RowId} {row : Row}
  {x : Handle} {f : OpenFile}

theorem isConnected_iff : s.isConnected c = true ↔ c ∈ s.connections := by simp [isConnected]

theorem checkConnection_eq_ok : s.checkConnection c = .ok () ↔ c ∈ s.connections := by
  rw [← isConnected_iff, checkConnection]
  split <;> simp_all

theorem opened_eq_ok : s.opened id = .ok (x, f) ↔
    FiniteMap.get? s.handles id = some x ∧ FiniteMap.get? s.files x.file = some f := by
  unfold opened
  split
  · simp_all
  · split <;> grind

theorem checkSessionLock_eq_ok : s.checkSessionLock c = .ok () ↔
    s.locks.conflictingHolder? c .session .exclusive = none := by
  unfold checkSessionLock
  split <;> simp_all

theorem checkRowLock_eq_ok {file : FileId} {r : RowId} : s.checkRowLock c file r = .ok () ↔
    s.locks.conflictingHolder? c (.row file r) .exclusive = none := by
  unfold checkRowLock
  split <;> simp_all

structure MayWrite (s : Server) (id : HandleId) (x : Handle) (f : OpenFile) : Prop where
  handle : FiniteMap.get? s.handles id = some x
  file : FiniteMap.get? s.files x.file = some f
  mode : x.mode ≠ .readOnly
  session : s.locks.conflictingHolder? x.connection .session .exclusive = none

theorem mayWrite_iff : s.MayWrite id x f ↔
    s.opened id = .ok (x, f) ∧ s.checkWritable x f = .ok () := by
  have hw : s.checkWritable x f = .ok () ↔
      x.mode ≠ .readOnly ∧ s.locks.conflictingHolder? x.connection .session .exclusive = none := by
    rw [← checkSessionLock_eq_ok]
    unfold checkWritable
    split <;> simp_all [bind, Except.bind]
  rw [opened_eq_ok, hw]
  exact ⟨fun h => ⟨⟨h.handle, h.file⟩, h.mode, h.session⟩,
    fun ⟨⟨h₁, h₂⟩, h₃, h₄⟩ => ⟨h₁, h₂, h₃, h₄⟩⟩

structure WriteAllowed (s : Server) (id : HandleId) (target : Option RowId) (row : Row)
    (x : Handle) (f : OpenFile) : Prop extends MayWrite s id x f where
  conforms : f.image.schema.checkRow row = .ok ()
  target_stored : ∀ r, target = some r → f.image.rows.contains r = true
  target_free : ∀ r, target = some r →
    s.locks.conflictingHolder? x.connection (.row x.file r) .exclusive = none
  unique : f.image.duplicate? row target = none
  room : target = none → f.image.nextRow.toNat + 1 < UInt64.size

theorem checkTarget_eq_ok : s.checkTarget x f target = .ok () ↔
    ∀ r, target = some r → f.image.rows.contains r = true ∧
      s.locks.conflictingHolder? x.connection (.row x.file r) .exclusive = none := by
  cases target with
  | none => simp [checkTarget]
  | some r =>
    simp only [checkTarget, Option.some.injEq, forall_eq', ← checkRowLock_eq_ok]
    cases f.image.rows.contains r <;> simp [bind, Except.bind]

theorem checkUnique_eq_ok {i : Image} :
    checkUnique i row target = .ok () ↔ i.duplicate? row target = none := by
  unfold checkUnique
  split <;> simp_all

theorem checkRoom_eq_ok {i : Image} :
    checkRoom i target = .ok () ↔ (target = none → i.nextRow.toNat + 1 < UInt64.size) := by
  cases target with
  | none =>
    simp only [checkRoom, forall_const]
    split <;> simp_all
  | some r => simp [checkRoom]

theorem checkWrite_eq_ok :
    s.checkWrite id target row = .ok (x, f) ↔ s.WriteAllowed id target row x f := by
  unfold checkWrite
  constructor
  · intro h
    obtain ⟨⟨y, g⟩, ho, h⟩ := bind_eq_ok.1 h
    obtain ⟨⟨⟩, hw, h⟩ := bind_eq_ok.1 h
    obtain ⟨⟨⟩, hc, h⟩ := bind_eq_ok.1 h
    obtain ⟨⟨⟩, ht, h⟩ := bind_eq_ok.1 h
    obtain ⟨⟨⟩, hu, h⟩ := bind_eq_ok.1 h
    obtain ⟨⟨⟩, hroom, h⟩ := bind_eq_ok.1 h
    cases h
    rw [checkTarget_eq_ok] at ht
    exact ⟨mayWrite_iff.2 ⟨ho, hw⟩, hc, fun r hr => (ht r hr).1, fun r hr => (ht r hr).2,
      checkUnique_eq_ok.1 hu, checkRoom_eq_ok.1 hroom⟩
  · intro h
    obtain ⟨ho, hw⟩ := mayWrite_iff.1 h.toMayWrite
    have ht := checkTarget_eq_ok.2 fun r hr => ⟨h.target_stored r hr, h.target_free r hr⟩
    exact bind_eq_ok.2 ⟨(x, f), ho, bind_eq_ok.2 ⟨(), hw, bind_eq_ok.2 ⟨(), h.conforms,
      bind_eq_ok.2 ⟨(), ht, bind_eq_ok.2 ⟨(), checkUnique_eq_ok.2 h.unique,
        bind_eq_ok.2 ⟨(), checkRoom_eq_ok.2 h.room, rfl⟩⟩⟩⟩⟩⟩

structure DeleteAllowed (s : Server) (id : HandleId) (r : RowId) (x : Handle) (f : OpenFile)
    (row : Row) : Prop extends MayWrite s id x f where
  free : s.locks.conflictingHolder? x.connection (.row x.file r) .exclusive = none
  stored : f.image.rows.get? r = some row

theorem checkDelete_eq_ok {r : RowId} :
    s.checkDelete id r = .ok (x, f, row) ↔ s.DeleteAllowed id r x f row := by
  unfold checkDelete
  constructor
  · intro h
    obtain ⟨⟨y, g⟩, ho, h⟩ := bind_eq_ok.1 h
    obtain ⟨⟨⟩, hw, h⟩ := bind_eq_ok.1 h
    obtain ⟨⟨⟩, hl, h⟩ := bind_eq_ok.1 h
    split at h
    · rename_i old hold
      cases h
      exact ⟨mayWrite_iff.2 ⟨ho, hw⟩, checkRowLock_eq_ok.1 hl, hold⟩
    · cases h
  · intro h
    obtain ⟨ho, hw⟩ := mayWrite_iff.1 h.toMayWrite
    refine bind_eq_ok.2 ⟨(x, f), ho, bind_eq_ok.2 ⟨(), hw,
      bind_eq_ok.2 ⟨(), checkRowLock_eq_ok.2 h.free, ?_⟩⟩⟩
    rw [h.stored]
    rfl

end Server
end Isam
