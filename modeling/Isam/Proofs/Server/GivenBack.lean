import Isam.Proofs.Server.Orphans
namespace Isam

open FiniteMap

namespace LockTable

variable {t : LockTable} {o : ConnectionId} {file : FileId}

theorem releaseRows_eq_self (rowless : ∀ r ∈ t.ownedBy o, r.isRowOf file = false) :
    t.releaseRows o file = t := by
  unfold releaseRows
  cases hrs : get? t.owned o with
  | none => rfl
  | some rs =>
    have howned : t.ownedBy o = rs := by rw [ownedBy, hrs, Option.getD_some]
    rw [howned] at rowless
    have hkept : rs.filter (fun r => !r.isRowOf file) = rs :=
      List.filter_eq_self.2 fun r hr => by rw [rowless r hr, Bool.not_false]
    have hgone : rs.filter (·.isRowOf file) = [] :=
      List.filter_eq_nil_iff.2 fun r hr => by rw [rowless r hr]; exact Bool.false_ne_true
    simp only [hkept, hgone, set_get? hrs]
    rfl

end LockTable

namespace Server

variable {s t : Server} {c : ConnectionId} {p : TablePath} {file : FileId} {id : HandleId}
  {x : Handle} {r : Registration} {i : Image} {m : OpenMode}

theorem close_eq_detach (hx : get? s.handles id = some x) :
    s.close id = { s.detach id x with locks := (s.close id).locks } := by
  unfold Server.close
  rw [hx]
  simp only
  split <;> rfl

theorem Guarded.locks_close_new (h : s.Guarded) (hs : s.Numbered)
    (fresh : get? s.handles id = none) (handles : t.handles = set s.handles id x)
    (locks : t.locks = s.locks) : (t.close id).locks = s.locks := by
  have hx : get? t.handles id = some x := by rw [handles, get?_set_self]
  -- who holds a row has its file open without the new handle too
  have hopen : Server.hasOpen { t with handles := erase t.handles id } x.connection x.file =
      s.hasOpen x.connection x.file := by
    rw [handles, erase_set_of_get?_none fresh]
    rfl
  rw [close_locks hx, hopen, locks]
  split
  · rfl
  · rename_i closed
    apply LockTable.releaseRows_eq_self
    intro q hq
    obtain ⟨k, hk⟩ := (h.indexed x.connection q).1 hq
    cases q with
    | session => rfl
    | row n row =>
      apply Bool.eq_false_iff.2
      intro hn
      have hfile : n = x.file := by simpa [LockResource.isRowOf] using hn
      apply closed
      rw [hasOpen_iff hs.nodup_handles, ← hfile]
      exact h.opened hk

theorem Describes.joined_rest (d : s.Describes p r) (found : get? s.registry p = some r)
    (fresh : get? s.handles s.nextId = none) :
    (s.joined p file m).handles.filter (· != s.nextId) = r.handles := by
  have hnew : s.nextId ∉ r.handles := by
    intro hid
    obtain ⟨y, hy, -⟩ := d.handles _ hid
    rw [fresh] at hy
    cases hy
  have hkept : r.handles.filter (· != s.nextId) = r.handles :=
    List.filter_eq_self.2 fun k hk => bne_iff_ne.2 (ne_of_mem_of_not_mem hk hnew)
  simp [joined_of_found found, hkept]

theorem joined_back (found : get? s.registry p = some r) (shared : r.exclusive = false) :
    { s.joined p file m with
      handles := r.handles
      exclusive := (s.joined p file m).exclusive && m != .exclusive } = r := by
  have hunmarked : (m == .exclusive && m != .exclusive) = r.exclusive := by
    rw [shared, bne, Bool.and_not_self]
  simp only [joined_of_found found, hunmarked]

theorem Consistent.close_register (hs : s.Consistent) (h : s.Guarded)
    (found : get? s.registry p = some r) (shared : r.exclusive = false)
    (alone : m = .exclusive → r.handles = []) :
    (s.register c p r.file m).2.close s.nextId = { s with nextId := s.nextId + 1 } := by
  have d := hs.registration found
  obtain ⟨i, hi⟩ := d.file
  have admits : s.Admits p r.file m := by
    intro q hq
    rw [found] at hq
    cases hq
    exact ⟨rfl, shared, alone⟩
  have inv : (s.register c p r.file m).2.Consistent := hs.register hi admits
  have fresh := hs.handle_fresh
  have hx : get? (s.register c p r.file m).2.handles s.nextId = some ⟨c, r.file, m⟩ :=
    get?_set_self _ _ _
  have hf : get? (s.register c p r.file m).2.files r.file = some ⟨p, i⟩ := hi
  have hr : get? (s.register c p r.file m).2.registry p = some (s.joined p r.file m) :=
    get?_set_self _ _ _
  have hrest : (s.joined p r.file m).handles.filter (· != s.nextId) = r.handles :=
    d.joined_rest found fresh
  have hlocks : ((s.register c p r.file m).2.close s.nextId).locks = s.locks :=
    h.locks_close_new hs.toNumbered fresh rfl rfl
  rw [close_eq_detach hx, hlocks,
    inv.detach_shared (x := ⟨c, r.file, m⟩) hf hr (hrest ▸ d.occupied), hrest,
    joined_back found shared]
  simp only [Server.register, found, set_set, set_get? found, erase_set_of_get?_none fresh]

theorem Consistent.close_registerNew (hs : s.Consistent) (h : s.Guarded)
    (free : get? s.registry p = none) :
    (s.registerNew c p i m).2.close (s.nextId + 1) = { s with nextId := s.nextId + 2 } := by
  have inv : (s.registerNew c p i m).2.Consistent := hs.registerNew free
  have fresh : get? s.handles (s.nextId + 1) = none :=
    (hs.withFile (p := p) (i := i)).handle_fresh
  have hx : get? (s.registerNew c p i m).2.handles (s.nextId + 1) = some ⟨c, s.nextId, m⟩ :=
    get?_set_self _ _ _
  have hf : get? (s.registerNew c p i m).2.files s.nextId = some ⟨p, i⟩ := get?_set_self _ _ _
  have hr : get? (s.registerNew c p i m).2.registry p =
      some ((s.withFile p i).joined p s.nextId m) := get?_set_self _ _ _
  have hrest : ((s.withFile p i).joined p s.nextId m).handles.filter (· != s.nextId + 1) = [] := by
    have hfree : get? (s.withFile p i).registry p = none := free
    rw [joined_of_free hfree]
    simp [Server.withFile]
  have hlocks : ((s.registerNew c p i m).2.close (s.nextId + 1)).locks = s.locks :=
    h.locks_close_new hs.toNumbered fresh rfl rfl
  rw [close_eq_detach hx, hlocks, inv.detach_last (x := ⟨c, s.nextId, m⟩) hf hr hrest]
  simp only [Server.registerNew, Server.register, erase_set_of_get?_none free,
    erase_set_of_get?_none fresh, erase_set_of_get?_none hs.file_fresh]

end Server

namespace Host

variable {h h' : Host}

structure GivenBack (h h' : Host) : Prop where
  nextId : h.server.nextId ≤ h'.server.nextId
  server : h'.server = { h.server with nextId := h'.server.nextId }
  disk : h'.disk = h.disk

theorem GivenBack.refl (h : Host) : h.GivenBack h := ⟨Nat.le_refl _, rfl, rfl⟩

theorem Sane.openTable_givenBack (sane : h.Sane) {c : ConnectionId} {a : TableAddress}
    {m : OpenMode} {id : HandleId} (opened : h.openTable c a m = (.ok id, h')) :
    h.GivenBack (h'.perform (.closeTable id)) := by
  have consistent := sane.registered.toConsistent
  have hperform : h'.perform (.closeTable id) = { h' with server := h'.server.close id } := rfl
  rw [hperform]
  cases Effect.openTable_opened opened with
  | joined _ found shared alone =>
    have hclose := consistent.close_register (c := c) sane.guarded found shared alone
    rw [hclose]
    exact ⟨Nat.le_succ _, rfl, rfl⟩
  | @loaded _ i _ _ _ _ free =>
    have hclose := consistent.close_registerNew (c := c) (i := i) (m := m) sane.guarded free
    rw [hclose]
    exact ⟨Nat.le_add_right _ 2, rfl, rfl⟩

end Host
end Isam
