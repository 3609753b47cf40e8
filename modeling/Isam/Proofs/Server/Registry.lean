import Isam.Proofs.Server.Checks
import Mathlib.Data.List.Perm.Basic
namespace Isam

open FiniteMap

namespace Server

variable {s t : Server} {c : ConnectionId} {p : TablePath} {n file : FileId} {id k : HandleId}
  {x : Handle} {f g : OpenFile} {r : Registration} {i : Image}

def ids (s : Server) : List Nat := s.connections ++ (keys s.handles ++ keys s.files)

structure Numbered (s : Server) : Prop where
  distinct : s.ids.Nodup
  below : ∀ n ∈ s.ids, n < s.nextId

structure Describes (s : Server) (p : TablePath) (r : Registration) : Prop where
  file : ∃ i, get? s.files r.file = some ⟨p, i⟩
  occupied : r.handles ≠ []
  handles : ∀ id ∈ r.handles, ∃ x, get? s.handles id = some x ∧ x.file = r.file
  alone : r.exclusive = true → ∃ id x, r.handles = [id] ∧ get? s.handles id = some x ∧
    x.mode = .exclusive
  marked : ∀ id ∈ r.handles, ∀ x, get? s.handles id = some x → x.mode = .exclusive →
    r.exclusive = true

structure Linked (s : Server) : Prop extends Numbered s where
  handle : ∀ {id x}, get? s.handles id = some x → ∃ f r, get? s.files x.file = some f ∧
    get? s.registry f.path = some r ∧ r.file = x.file ∧ id ∈ r.handles
  registration : ∀ {p r}, get? s.registry p = some r → s.Describes p r

structure Consistent (s : Server) : Prop extends Linked s where
  file : ∀ {n f}, get? s.files n = some f → ∃ r, get? s.registry f.path = some r ∧ r.file = n

theorem Numbered.of_sublist (h : s.Numbered) (hs : t.ids.Sublist s.ids) (hn : t.nextId = s.nextId) :
    t.Numbered where
  distinct := h.distinct.sublist hs
  below n hm := hn ▸ h.below n (hs.subset hm)

theorem Numbered.of_perm (h : s.Numbered) (hs : t.ids.Perm (s.nextId :: s.ids))
    (hn : t.nextId = s.nextId + 1) : t.Numbered where
  distinct := by
    rw [hs.nodup_iff, List.nodup_cons]
    exact ⟨fun hm => Nat.lt_irrefl _ (h.below _ hm), h.distinct⟩
  below n hm := by
    rw [hn]
    rcases List.mem_cons.1 (hs.subset hm) with rfl | hm
    · exact Nat.lt_succ_self _
    · exact Nat.lt_succ_of_lt (h.below n hm)

theorem Numbered.handle_lt (h : s.Numbered) (hx : get? s.handles id = some x) : id < s.nextId :=
  h.below _ (List.mem_append_right _ (List.mem_append_left _ (mem_keys_iff.2 ⟨x, hx⟩)))

theorem Numbered.file_lt (h : s.Numbered) (hf : get? s.files n = some f) : n < s.nextId :=
  h.below _ (List.mem_append_right _ (List.mem_append_right _ (mem_keys_iff.2 ⟨f, hf⟩)))

theorem Numbered.handle_fresh (h : s.Numbered) : get? s.handles s.nextId = none := by
  cases hx : get? s.handles s.nextId with
  | none => rfl
  | some x => exact absurd (h.handle_lt hx) (Nat.lt_irrefl _)

theorem Numbered.file_fresh (h : s.Numbered) : get? s.files s.nextId = none := by
  cases hf : get? s.files s.nextId with
  | none => rfl
  | some f => exact absurd (h.file_lt hf) (Nat.lt_irrefl _)

theorem Numbered.nodup_handles (h : s.Numbered) : (keys s.handles).Nodup :=
  (List.nodup_append.1 (List.nodup_append.1 h.distinct).2.1).1

theorem Numbered.nodup_files (h : s.Numbered) : (keys s.files).Nodup :=
  (List.nodup_append.1 (List.nodup_append.1 h.distinct).2.1).2.1

theorem Consistent.path_eq (h : s.Consistent) (hr : get? s.registry p = some r)
    (hf : get? s.files r.file = some f) : f.path = p := by
  obtain ⟨i, hi⟩ := (h.registration hr).file
  rw [hf] at hi
  cases hi
  rfl

theorem Consistent.registration_eq (h : s.Consistent) (hf : get? s.files n = some f)
    (hr : get? s.registry f.path = some r) : r.file = n := by
  obtain ⟨r', hr', hn⟩ := h.file hf
  rw [hr] at hr'
  cases hr'
  exact hn

theorem Consistent.file_eq (h : s.Consistent) (hf : get? s.files n = some f)
    (hg : get? s.files file = some g) (hl : f.path = g.path) : n = file := by
  obtain ⟨r, hr, rfl⟩ := h.file hf
  exact h.registration_eq hg (hl ▸ hr)

theorem Consistent.with_locks (h : s.Consistent) (locks : LockTable) :
    Consistent { s with locks } where
  distinct := h.distinct
  below := h.below
  handle := h.handle
  registration hr :=
    let d := h.registration hr
    ⟨d.file, d.occupied, d.handles, d.alone, d.marked⟩
  file := h.file

theorem Consistent.with_connection (h : s.Consistent) : Consistent { s with
    nextId := s.nextId + 1
    connections := s.connections ++ [s.nextId] } where
  toNumbered := h.toNumbered.of_perm (by simp [ids]) rfl
  handle := h.handle
  registration hr :=
    let d := h.registration hr
    ⟨d.file, d.occupied, d.handles, d.alone, d.marked⟩
  file := h.file

theorem Consistent.without_connection (h : s.Consistent) : Consistent { s with
    connections := s.connections.filter (· != c) } where
  toNumbered := h.toNumbered.of_sublist (List.filter_sublist.append (.refl _)) rfl
  handle := h.handle
  registration hr :=
    let d := h.registration hr
    ⟨d.file, d.occupied, d.handles, d.alone, d.marked⟩
  file := h.file

theorem get?_files_setImage : get? (s.setImage file f i).files n =
    if file = n then some { f with image := i } else get? s.files n := get?_set _ _ _ _

theorem get?_files_of_setImage (hg : get? (s.setImage file f i).files n = some g) :
    n = file ∧ g = { f with image := i } ∨ get? s.files n = some g := by
  rw [get?_files_setImage] at hg
  split at hg
  · rename_i hn
    cases hg
    exact .inl ⟨hn.symm, rfl⟩
  · exact .inr hg

theorem Consistent.setImage (h : s.Consistent) (hf : get? s.files file = some f) :
    (s.setImage file f i).Consistent where
  distinct := by
    have hk := mem_keys_iff.2 ⟨f, hf⟩
    simpa [ids, Server.setImage, keys_set, hk] using h.distinct
  below := by
    have hk := mem_keys_iff.2 ⟨f, hf⟩
    simpa [ids, Server.setImage, keys_set, hk] using h.below
  handle hx := by
    obtain ⟨g, r, hg, hr, hn, hid⟩ := h.handle hx
    simp only [Server.setImage, get?_set]
    split
    · rename_i hfile
      rw [← hfile, hf] at hg
      cases hg
      exact ⟨_, r, rfl, hr, hn, hid⟩
    · exact ⟨g, r, hg, hr, hn, hid⟩
  registration hr := by
    have d := h.registration hr
    refine ⟨?_, d.occupied, d.handles, d.alone, d.marked⟩
    obtain ⟨j, hj⟩ := d.file
    simp only [Server.setImage, get?_set]
    split
    · rename_i hfile
      rw [← hfile, hf] at hj
      cases hj
      exact ⟨i, rfl⟩
    · exact ⟨j, hj⟩
  file hg := by
    simp only [Server.setImage, get?_set] at hg
    split at hg
    · rename_i hfile
      cases hg
      obtain ⟨r, hr, hn⟩ := h.file hf
      exact ⟨r, hr, hn.trans hfile⟩
    · exact h.file hg

end Server
end Isam
