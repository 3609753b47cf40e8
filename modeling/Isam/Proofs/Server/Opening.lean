import Isam.Proofs.Server.Registry
namespace Isam

open FiniteMap

namespace Server

variable {s : Server} {c : ConnectionId} {p q : TablePath} {file : FileId} {id k : HandleId}
  {y : Handle} {i : Image} {mode : OpenMode}

def withFile (s : Server) (p : TablePath) (i : Image) : Server :=
  { s with nextId := s.nextId + 1, files := set s.files s.nextId ⟨p, i⟩ }

theorem registerNew_eq (s : Server) (c : ConnectionId) (p : TablePath) (i : Image)
    (mode : OpenMode) :
    s.registerNew c p i mode = (s.withFile p i).register c p s.nextId mode := rfl

theorem get?_files_registerNew {n : FileId} : get? (s.registerNew c p i mode).2.files n =
    if s.nextId = n then some ⟨p, i⟩ else get? s.files n := get?_set _ _ _ _

theorem get?_files_of_registerNew {n : FileId} {f : OpenFile}
    (hf : get? (s.registerNew c p i mode).2.files n = some f) :
    n = s.nextId ∧ f = ⟨p, i⟩ ∨ get? s.files n = some f := by
  rw [get?_files_registerNew] at hf
  split at hf
  · rename_i hn
    cases hf
    exact .inl ⟨hn.symm, rfl⟩
  · exact .inr hf

def Admits (s : Server) (p : TablePath) (file : FileId) (mode : OpenMode) : Prop :=
  ∀ r, get? s.registry p = some r →
    r.file = file ∧ r.exclusive = false ∧ (mode = .exclusive → r.handles = [])

theorem Numbered.withFile (h : s.Numbered) : (s.withFile p i).Numbered := by
  have hk : s.nextId ∉ keys s.files := get?_eq_none_iff.1 h.file_fresh
  refine h.of_perm ?_ rfl
  simp only [ids, Server.withFile, keys_set, hk, if_false, ← List.append_assoc]
  exact (List.perm_append_singleton _ _)

theorem Numbered.register (h : s.Numbered) : (s.register c p file mode).2.Numbered := by
  have hk : s.nextId ∉ keys s.handles := get?_eq_none_iff.1 h.handle_fresh
  refine h.of_perm ?_ rfl
  simp only [ids, Server.register, keys_set, hk, if_false, List.append_assoc]
  rw [← List.append_assoc s.connections, ← List.append_assoc s.connections]
  exact List.perm_middle

def joined (s : Server) (p : TablePath) (file : FileId) (mode : OpenMode) : Registration :=
  let r := (get? s.registry p).getD { file }
  { r with handles := r.handles ++ [s.nextId], exclusive := mode == .exclusive }

theorem joined_of_found {r : Registration} (found : get? s.registry p = some r) :
    s.joined p file mode =
      { r with handles := r.handles ++ [s.nextId], exclusive := mode == .exclusive } := by
  rw [joined, found]
  rfl

theorem joined_of_free (free : get? s.registry p = none) :
    s.joined p file mode = { file, handles := [s.nextId], exclusive := mode == .exclusive } := by
  rw [joined, free]
  rfl

theorem mem_joined : id ∈ (s.joined p file mode).handles ↔
    id = s.nextId ∨ ∃ r, get? s.registry p = some r ∧ id ∈ r.handles := by
  simp only [joined]
  cases get? s.registry p <;> simp [or_comm]

theorem Admits.file_joined (ha : s.Admits p file mode) : (s.joined p file mode).file = file := by
  simp only [joined]
  cases hr : get? s.registry p with
  | none => rfl
  | some r => exact (ha r hr).1

theorem Linked.withFile (h : s.Linked) : (s.withFile p i).Linked where
  toNumbered := h.toNumbered.withFile
  handle hx := by
    obtain ⟨f, r, hf, hr, hn, hid⟩ := h.handle hx
    refine ⟨f, r, ?_, hr, hn, hid⟩
    rw [Server.withFile, get?_set_ne _ _ (Nat.ne_of_gt (h.file_lt hf)), hf]
  registration hr := by
    have d := h.registration hr
    refine ⟨?_, d.occupied, d.handles, d.alone, d.marked⟩
    obtain ⟨j, hj⟩ := d.file
    exact ⟨j, by rw [Server.withFile, get?_set_ne _ _ (Nat.ne_of_gt (h.file_lt hj)), hj]⟩

theorem get?_registry_register : get? (s.register c p file mode).2.registry q =
    if p = q then some (s.joined p file mode) else get? s.registry q := get?_set _ _ _ _

theorem get?_handles_register : get? (s.register c p file mode).2.handles k =
    if s.nextId = k then some ⟨c, file, mode⟩ else get? s.handles k := get?_set _ _ _ _

theorem Numbered.get?_handles_register (h : s.Numbered) (hy : get? s.handles k = some y) :
    get? (s.register c p file mode).2.handles k = some y := by
  rw [Server.get?_handles_register, if_neg (Nat.ne_of_gt (h.handle_lt hy)), hy]

theorem Linked.describes_joined (h : s.Linked) (hfile : get? s.files file = some ⟨p, i⟩)
    (ha : s.Admits p file mode) :
    (s.register c p file mode).2.Describes p (s.joined p file mode) where
  file := ⟨i, by rw [ha.file_joined]; exact hfile⟩
  occupied := List.ne_nil_of_mem (mem_joined.2 (.inl rfl))
  handles id hid := by
    rw [ha.file_joined]
    rcases mem_joined.1 hid with rfl | ⟨r, hr, hid⟩
    · exact ⟨_, by rw [get?_handles_register, if_pos rfl], rfl⟩
    · obtain ⟨x, hx, hxf⟩ := (h.registration hr).handles id hid
      exact ⟨x, h.get?_handles_register hx, hxf.trans (ha r hr).1⟩
  alone hm := by
    have hmode : mode = .exclusive := by simpa [joined] using hm
    refine ⟨s.nextId, ⟨c, file, mode⟩, ?_, by rw [get?_handles_register, if_pos rfl], hmode⟩
    simp only [joined]
    cases hr : get? s.registry p with
    | none => rfl
    | some r => simp [(ha r hr).2.2 hmode]
  marked id hid x hx hmode := by
    rcases mem_joined.1 hid with rfl | ⟨r, hr, hid⟩
    · rw [get?_handles_register, if_pos rfl] at hx
      cases hx
      simpa [joined] using hmode
    · -- an older handle that is exclusive would have kept the new one out
      obtain ⟨y, hy, -⟩ := (h.registration hr).handles id hid
      rw [h.get?_handles_register hy] at hx
      cases hx
      have hmarked := (h.registration hr).marked id hid _ hy hmode
      rw [(ha r hr).2.1] at hmarked
      cases hmarked

theorem Linked.register (h : s.Linked) (hfile : get? s.files file = some ⟨p, i⟩)
    (ha : s.Admits p file mode) : (s.register c p file mode).2.Linked where
  toNumbered := h.toNumbered.register
  handle {id x} hx := by
    rw [get?_handles_register] at hx
    split at hx
    · rename_i hid
      cases hx
      exact ⟨_, s.joined p file mode, hfile, by rw [get?_registry_register, if_pos rfl],
        ha.file_joined, mem_joined.2 (.inl hid.symm)⟩
    · obtain ⟨f, r, hf, hr, hn, hid⟩ := h.handle hx
      by_cases hl : p = f.path
      · subst hl
        refine ⟨f, s.joined f.path file mode, hf, by rw [get?_registry_register, if_pos rfl],
          ?_, mem_joined.2 (.inr ⟨r, hr, hid⟩)⟩
        rw [ha.file_joined, ← (ha r hr).1, hn]
      · exact ⟨f, r, hf, by rw [get?_registry_register, if_neg hl, hr], hn, hid⟩
  registration {q r} hr := by
    rw [get?_registry_register] at hr
    split at hr
    · rename_i hl
      cases hr
      exact hl ▸ h.describes_joined hfile ha
    · have d := h.registration hr
      refine ⟨d.file, d.occupied, ?_, ?_, ?_⟩
      · intro id hid
        obtain ⟨x, hx, hxf⟩ := d.handles id hid
        exact ⟨x, h.get?_handles_register hx, hxf⟩
      · intro hm
        obtain ⟨id, x, hid, hx, hmode⟩ := d.alone hm
        exact ⟨id, x, hid, h.get?_handles_register hx, hmode⟩
      · intro id hid x hx hmode
        obtain ⟨y, hy, -⟩ := d.handles id hid
        rw [h.get?_handles_register hy] at hx
        cases hx
        exact d.marked id hid _ hy hmode

theorem Admits.registered (ha : s.Admits p file mode) (hfile : get? s.files file = some ⟨p, i⟩)
    (h : ∀ n f, get? s.files n = some f → n ≠ file →
      ∃ r, get? s.registry f.path = some r ∧ r.file = n) {n : FileId} {f : OpenFile}
    (hf : get? s.files n = some f) :
    ∃ r, get? (s.register c p file mode).2.registry f.path = some r ∧ r.file = n := by
  rw [get?_registry_register]
  by_cases hn : n = file
  · subst hn
    rw [hfile] at hf
    cases hf
    exact ⟨_, if_pos rfl, ha.file_joined⟩
  · obtain ⟨r, hr, hrn⟩ := h n f hf hn
    have hl : p ≠ f.path := fun hl => hn (hrn.symm.trans (ha r (hl ▸ hr)).1)
    exact ⟨r, by rw [if_neg hl, hr], hrn⟩

theorem Consistent.register (h : s.Consistent) (hfile : get? s.files file = some ⟨p, i⟩)
    (ha : s.Admits p file mode) : (s.register c p file mode).2.Consistent where
  toLinked := h.toLinked.register hfile ha
  file hf := ha.registered hfile (fun _ _ hf _ => h.file hf) hf

theorem Consistent.registerNew (h : s.Consistent) (free : get? s.registry p = none) :
    (s.registerNew c p i mode).2.Consistent := by
  have hfile : get? (s.withFile p i).files s.nextId = some ⟨p, i⟩ := get?_set_self _ _ _
  have ha : (s.withFile p i).Admits p s.nextId mode := fun r hr => by
    rw [show (s.withFile p i).registry = s.registry from rfl, free] at hr
    cases hr
  refine ⟨h.toLinked.withFile.register hfile ha, fun hf => ha.registered hfile ?_ hf⟩
  intro n f hf hn
  rw [Server.withFile, get?_set_ne _ _ hn.symm] at hf
  exact h.file hf

end Server
end Isam
