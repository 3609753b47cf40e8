import Isam.Proofs.Lock.Table
import Isam.Proofs.Server.Registered
namespace Isam

open FiniteMap

namespace Server

variable {s t : Server} {c : ConnectionId} {id : HandleId} {x : Handle} {r : LockResource}
  {k : LockKind}

structure Guarded (s : Server) : Prop where
  indexed : s.locks.Indexed
  opened : ∀ {o k file row}, (o, k) ∈ s.locks.holdersOf (.row file row) →
    ∃ id x, get? s.handles id = some x ∧ x.connection = o ∧ x.file = file

theorem guarded_start (config : EngineConfig) : (start config).Guarded where
  indexed := LockTable.indexed_empty
  opened h := by simp [start, LockTable.holdersOf, get?] at h

theorem Guarded.of_handles (h : s.Guarded) (hl : t.locks = s.locks)
    (hh : ∀ id x, get? s.handles id = some x → get? t.handles id = some x) : t.Guarded where
  indexed := hl ▸ h.indexed
  opened hk := by
    rw [hl] at hk
    obtain ⟨id, x, hx, hc, hf⟩ := h.opened hk
    exact ⟨id, x, hh id x hx, hc, hf⟩

theorem Guarded.register {p : TablePath} {file : FileId} {mode : OpenMode} (h : s.Guarded)
    (hn : s.Numbered) : (s.register c p file mode).2.Guarded :=
  h.of_handles rfl fun _ _ hx => hn.get?_handles_register hx

theorem Guarded.registerNew {p : TablePath} {i : Image} {mode : OpenMode} (h : s.Guarded)
    (hn : s.Numbered) : (s.registerNew c p i mode).2.Guarded :=
  Guarded.register (h.of_handles rfl fun _ _ hx => hx) hn.withFile

theorem Guarded.grant (h : s.Guarded) (hr : ∀ file row, r = .row file row →
    ∃ id x, get? s.handles id = some x ∧ x.connection = c ∧ x.file = file) :
    Guarded { s with locks := s.locks.grant c r k } where
  indexed := h.indexed.grant
  opened {o j file row} hk := by
    simp only [LockTable.holdersOf_grant] at hk
    split at hk
    · rename_i hrow
      rcases List.mem_append.1 hk with hk | hk
      · exact h.opened (LockTable.mem_without.1 hk).1
      · cases List.mem_singleton.1 hk
        exact hr file row hrow
    · exact h.opened hk

theorem Guarded.fewer {locks : LockTable} (h : s.Guarded) (hi : locks.Indexed)
    (hl : ∀ r x, x ∈ locks.holdersOf r → x ∈ s.locks.holdersOf r) :
    Guarded { s with locks } where
  indexed := hi
  opened hk := h.opened (hl _ _ hk)

theorem Guarded.release (h : s.Guarded) :
    Guarded { s with locks := (s.locks.release c r).2 } :=
  h.fewer h.indexed.release fun _ _ hy => LockTable.mem_of_release hy

theorem Guarded.unlock (h : s.Guarded) : (s.unlock c).Guarded :=
  h.fewer h.indexed.releaseAll fun _ _ hy => LockTable.mem_of_releaseAll hy

theorem hasOpen_iff (hs : (keys s.handles).Nodup) {file : FileId} :
    s.hasOpen c file = true ↔
      ∃ id x, get? s.handles id = some x ∧ x.connection = c ∧ x.file = file := by
  simp only [hasOpen, List.any_eq_true, Prod.exists, mem_iff_get? hs, Bool.and_eq_true, beq_iff_eq]

theorem close_locks (hx : get? s.handles id = some x) :
    (s.close id).locks =
      if Server.hasOpen { s with handles := erase s.handles id } x.connection x.file then s.locks
      else s.locks.releaseRows x.connection x.file := by
  unfold Server.close
  rw [hx]
  obtain ⟨registry, files, hd, -⟩ := detach_eq s id x
  simp only [hd]
  have hopen : Server.hasOpen { s with handles := erase s.handles id, registry, files }
      x.connection x.file = Server.hasOpen { s with handles := erase s.handles id }
      x.connection x.file := rfl
  rw [hopen]
  split <;> rfl

theorem mem_locks_of_close {y : Holder} (h : y ∈ (s.close id).locks.holdersOf r) :
    y ∈ s.locks.holdersOf r := by
  cases hx : get? s.handles id with
  | none => rwa [Server.close, hx] at h
  | some x =>
    rw [close_locks hx] at h
    split at h
    · exact h
    · exact LockTable.mem_of_releaseRows h

theorem mem_locks_of_disconnect {y : Holder} (h : y ∈ (s.disconnect c).locks.holdersOf r) :
    y ∈ s.locks.holdersOf r := by
  have hclose (ids : List HandleId) (t : Server)
      (hy : y ∈ (ids.foldl Server.close t).locks.holdersOf r) : y ∈ t.locks.holdersOf r := by
    induction ids generalizing t with
    | nil => exact hy
    | cons id ids ih => exact mem_locks_of_close (ih _ hy)
  unfold Server.disconnect at h
  split at h
  · exact hclose _ { s with connections := s.connections.filter (· != c) }
      (LockTable.mem_of_releaseAll h)
  · exact h

theorem Guarded.close (h : s.Guarded) (hn : s.Numbered) (id : HandleId) :
    (s.close id).Guarded := by
  cases hx : get? s.handles id with
  | none => exact h.of_handles (by rw [Server.close, hx]) fun _ _ hy => by rwa [Server.close, hx]
  | some x =>
    have hlocks := close_locks hx
    have hnodup : (keys (erase s.handles id)).Nodup := nodup_keys_erase hn.nodup_handles id
    have hkept {o : ConnectionId} {j : LockKind} {file : FileId} {row : RowId}
        (hk : (o, j) ∈ s.locks.holdersOf (.row file row))
        (hother : o = x.connection → file = x.file →
          Server.hasOpen { s with handles := erase s.handles id } x.connection x.file = true) :
        ∃ n y, get? (s.close id).handles n = some y ∧ y.connection = o ∧ y.file = file := by
      obtain ⟨n, y, hy, hc, hf⟩ := h.opened hk
      by_cases hid : id = n
      · -- the handle that is closed is not the last one of its connection on the file
        rw [← hid, hx] at hy
        cases hy
        obtain ⟨m, z, hz, hzc, hzf⟩ := (hasOpen_iff hnodup).1 (hother hc.symm hf.symm)
        obtain ⟨hm, hz⟩ := get?_erase_eq_some.1 hz
        exact ⟨m, z, by rw [get?_handles_close, if_neg hm, hz], hzc.trans hc, hzf.trans hf⟩
      · exact ⟨n, y, by rw [get?_handles_close, if_neg hid, hy], hc, hf⟩
    by_cases hopen : Server.hasOpen { s with handles := erase s.handles id } x.connection x.file
    · rw [if_pos hopen] at hlocks
      refine ⟨hlocks ▸ h.indexed, fun hk => ?_⟩
      rw [hlocks] at hk
      exact hkept hk fun _ _ => hopen
    · rw [if_neg hopen] at hlocks
      refine ⟨hlocks ▸ h.indexed.releaseRows, fun {o j file row} hk => ?_⟩
      rw [hlocks, h.indexed.holdersOf_releaseRows] at hk
      split at hk
      · obtain ⟨hk, hne⟩ := LockTable.mem_without.1 hk
        exact hkept hk fun ho => absurd ho hne
      · rename_i hrow
        refine hkept hk fun _ hf => absurd ?_ hrow
        simpa [LockResource.isRowOf] using hf

theorem Guarded.foldl_close (h : s.Guarded) (hs : s.Consistent) (ids : List HandleId) :
    (ids.foldl Server.close s).Guarded := by
  induction ids generalizing s with
  | nil => exact h
  | cons id ids ih => exact ih (h.close hs.toNumbered id) (hs.close id)

theorem Guarded.disconnect (h : s.Guarded) (hs : s.Consistent) (c : ConnectionId) :
    (s.disconnect c).Guarded := by
  unfold Server.disconnect
  split
  · have hg : Guarded { s with connections := s.connections.filter (· != c) } :=
      h.of_handles rfl fun _ _ hx => hx
    exact (hg.foldl_close hs.without_connection _).unlock
  · exact h

end Server

theorem Effect.guarded {h h' : Host} {r : Request} (e : Effect h r h')
    (inv : h.server.Registered) (hg : h.server.Guarded) : h'.server.Guarded := by
  cases e with
  | unchanged => exact hg
  | connected => exact hg.of_handles rfl fun _ _ hx => hx
  | disconnected c => exact hg.disconnect inv.toConsistent c
  | created | loaded => exact hg.registerNew inv.toNumbered
  | joined => exact hg.register inv.toNumbered
  | closed id => exact hg.close inv.toNumbered id
  | wrote | deleted => exact hg.of_handles rfl fun _ _ hx => hx
  | locked => exact hg.grant fun _ _ hr => nomatch hr
  | unlocked => exact hg.unlock
  | @rowLocked id r m x f k handle =>
    refine hg.grant fun file row hr => ?_
    cases hr
    exact ⟨id, x, handle, rfl, rfl⟩
  | rowUnlocked => exact hg.release

theorem Host.guarded_run (config : EngineConfig) (disk : Disk) (es : List Event) :
    ((start config disk).run es).server.Guarded :=
  server_run config disk es Server.guarded_start Effect.guarded

end Isam
