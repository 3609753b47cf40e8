import Isam.Proofs.Server.Registry
namespace Isam

open FiniteMap

namespace Server

variable {s t : Server} {c : ConnectionId} {p : TablePath} {n : FileId} {id k : HandleId}
  {x y : Handle} {f : OpenFile} {r : Registration}

theorem Consistent.handles_of_path (h : s.Consistent) (hf : get? s.files n = some f)
    (hr : get? s.registry f.path = some r) (hy : get? s.handles k = some y)
    (hn : y.file = n) : k ∈ r.handles := by
  obtain ⟨g, r', hg, hr', -, hk⟩ := h.handle hy
  rw [hn, hf] at hg
  cases hg
  rw [hr] at hr'
  cases hr'
  exact hk

theorem Consistent.any_file_iff (h : s.Consistent) (hf : get? s.files n = some f)
    (hr : get? s.registry f.path = some r) (id : HandleId) :
    (erase s.handles id).any (·.2.file == n) = true ↔ r.handles.filter (· != id) ≠ [] := by
  rw [List.any_eq_true]
  constructor
  · rintro ⟨⟨k, y⟩, hmem, hn⟩
    obtain ⟨hmem, hk⟩ := List.mem_filter.1 hmem
    have hy := (mem_iff_get? h.nodup_handles).1 hmem
    have hkr := h.handles_of_path hf hr hy (by simpa using hn)
    exact List.ne_nil_of_mem (List.mem_filter.2 ⟨hkr, by simpa using hk⟩)
  · intro hrest
    obtain ⟨k, hk⟩ := List.exists_mem_of_ne_nil _ hrest
    obtain ⟨hkr, hne⟩ := List.mem_filter.1 hk
    obtain ⟨y, hy, hyf⟩ := (h.registration hr).handles k hkr
    refine ⟨(k, y), List.mem_filter.2 ⟨mem_of_get? hy, by simpa using hne⟩, ?_⟩
    simpa [hyf] using h.registration_eq hf hr

theorem Consistent.detach_last (h : s.Consistent) (hf : get? s.files x.file = some f)
    (hr : get? s.registry f.path = some r) (hrest : r.handles.filter (· != id) = []) :
    s.detach id x = { s with
      handles := erase s.handles id
      registry := erase s.registry f.path
      files := erase s.files x.file } := by
  have hany := h.any_file_iff hf hr id
  rw [hrest] at hany
  simp only [detach, hf, unregister, hr, hrest, forget, List.isEmpty_nil, if_true]
  rw [if_neg fun ht => hany.1 ht rfl]

theorem Consistent.detach_shared (h : s.Consistent) (hf : get? s.files x.file = some f)
    (hr : get? s.registry f.path = some r) (hrest : r.handles.filter (· != id) ≠ []) :
    s.detach id x = { s with
      handles := erase s.handles id
      registry := set s.registry f.path { r with
        handles := r.handles.filter (· != id)
        exclusive := r.exclusive && x.mode != .exclusive } } := by
  have hany := (h.any_file_iff hf hr id).2 hrest
  simp only [detach, hf, unregister, hr, forget, List.isEmpty_iff, hrest, if_false]
  rw [if_pos hany]

theorem ids_sublist (hc : t.connections = s.connections) (hh : t.handles = erase s.handles id)
    (hf : (keys t.files).Sublist (keys s.files)) : t.ids.Sublist s.ids := by
  unfold ids
  rw [hc, hh, keys_erase]
  exact (List.Sublist.refl _).append (List.filter_sublist.append hf)

theorem get?_erase_eq_some {α β : Type} [DecidableEq α] {m : FiniteMap α β} {k l : α} {v : β} :
    get? (erase m k) l = some v ↔ k ≠ l ∧ get? m l = some v := by
  rw [get?_erase]
  split <;> simp_all

theorem Consistent.not_mem_handles (h : s.Consistent) (hx : get? s.handles id = some x)
    (hr : get? s.registry p = some r) (hne : x.file ≠ r.file) : id ∉ r.handles := by
  intro hid
  obtain ⟨y, hy, hyf⟩ := (h.registration hr).handles id hid
  rw [hx] at hy
  cases hy
  exact hne hyf

theorem Describes.erase (d : s.Describes p r) (hid : id ∉ r.handles)
    (hh : t.handles = erase s.handles id) (hf : get? t.files r.file = get? s.files r.file) :
    t.Describes p r := by
  have hkeep : ∀ k ∈ r.handles, get? t.handles k = get? s.handles k := by
    intro k hk
    rw [hh, get?_erase_ne]
    rintro rfl
    exact hid hk
  refine ⟨?_, d.occupied, ?_, ?_, ?_⟩
  · rw [hf]
    exact d.file
  · intro k hk
    rw [hkeep k hk]
    exact d.handles k hk
  · intro hm
    obtain ⟨k, y, hk, hy, hmode⟩ := d.alone hm
    exact ⟨k, y, hk, by rw [hkeep k (hk ▸ List.mem_singleton_self k), hy], hmode⟩
  · intro k hk y hy hmode
    rw [hkeep k hk] at hy
    exact d.marked k hk y hy hmode

theorem Consistent.erase_last (h : s.Consistent) (hx : get? s.handles id = some x)
    (hf : get? s.files x.file = some f) (hr : get? s.registry f.path = some r)
    (hrest : r.handles.filter (· != id) = []) : Consistent { s with
      handles := erase s.handles id
      registry := erase s.registry f.path
      files := erase s.files x.file } := by
  -- no other handle is on the file, and no other place has it registered
  have honly : ∀ k y, get? s.handles k = some y → id ≠ k → x.file ≠ y.file := by
    intro k y hy hk hyf
    have hkr := h.handles_of_path hf hr hy hyf.symm
    have hmem : k ∈ r.handles.filter (· != id) := List.mem_filter.2 ⟨hkr, bne_iff_ne.2 hk.symm⟩
    rw [hrest] at hmem
    cases hmem
  have hfiles : (keys (erase s.files x.file)).Sublist (keys s.files) :=
    keys_erase s.files x.file ▸ List.filter_sublist
  refine ⟨⟨h.toNumbered.of_sublist (ids_sublist rfl rfl hfiles) rfl, ?_, ?_⟩, ?_⟩
  · intro k y hy
    obtain ⟨hk, hy⟩ := get?_erase_eq_some.1 hy
    obtain ⟨g, r', hg, hr', hn, hkr⟩ := h.handle hy
    have hne := honly k y hy hk
    exact ⟨g, r', get?_erase_eq_some.2 ⟨hne, hg⟩,
      get?_erase_eq_some.2 ⟨fun hl => hne (h.file_eq hf hg hl), hr'⟩, hn, hkr⟩
  · intro q r' hr'
    obtain ⟨hm, hr'⟩ := get?_erase_eq_some.1 hr'
    have hne : x.file ≠ r'.file := fun he => hm (h.path_eq hr' (he ▸ hf))
    exact (h.registration hr').erase (h.not_mem_handles hx hr' hne) rfl (get?_erase_ne _ hne)
  · intro n g hg
    obtain ⟨hn, hg⟩ := get?_erase_eq_some.1 hg
    obtain ⟨r', hr', hrn⟩ := h.file hg
    exact ⟨r', get?_erase_eq_some.2 ⟨fun hl => hn (h.file_eq hf hg hl), hr'⟩, hrn⟩

theorem Consistent.erase_shared (h : s.Consistent) (hx : get? s.handles id = some x)
    (hf : get? s.files x.file = some f) (hr : get? s.registry f.path = some r)
    (hrest : r.handles.filter (· != id) ≠ []) : Consistent { s with
      handles := erase s.handles id
      registry := set s.registry f.path { r with
        handles := r.handles.filter (· != id)
        exclusive := r.exclusive && x.mode != .exclusive } } := by
  have d := h.registration hr
  -- a file with a second handle is not opened exclusively
  have hshared : r.exclusive = false := by
    cases hm : r.exclusive with
    | false => rfl
    | true =>
      obtain ⟨k, y, hk, -⟩ := d.alone hm
      have hid := h.handles_of_path hf hr hx rfl
      rw [hk] at hid hrest
      simp_all
  refine ⟨⟨h.toNumbered.of_sublist (ids_sublist rfl rfl (.refl _)) rfl, ?_, ?_⟩, ?_⟩
  · intro k y hy
    obtain ⟨hk, hy⟩ := get?_erase_eq_some.1 hy
    obtain ⟨g, r', hg, hr', hn, hkr⟩ := h.handle hy
    refine ⟨g, ?_⟩
    rw [get?_set]
    split
    · rename_i hl
      rw [← hl, hr] at hr'
      cases hr'
      exact ⟨_, hg, rfl, hn, List.mem_filter.2 ⟨hkr, bne_iff_ne.2 hk.symm⟩⟩
    · exact ⟨r', hg, hr', hn, hkr⟩
  · intro q r' hr'
    rw [get?_set] at hr'
    split at hr'
    · rename_i hl
      subst hl
      cases hr'
      refine ⟨d.file, hrest, ?_, ?_, ?_⟩
      · intro k hk
        obtain ⟨hkr, hne⟩ := List.mem_filter.1 hk
        obtain ⟨y, hy, hyf⟩ := d.handles k hkr
        exact ⟨y, get?_erase_eq_some.2 ⟨(bne_iff_ne.1 hne).symm, hy⟩, hyf⟩
      · intro hm
        simp [hshared] at hm
      · intro k hk y hy hmode
        have hm := d.marked k (List.mem_filter.1 hk).1 y (get?_erase_eq_some.1 hy).2 hmode
        rw [hshared] at hm
        cases hm
    · rename_i hl
      have hne : x.file ≠ r'.file := fun he => hl (h.path_eq hr' (he ▸ hf))
      exact (h.registration hr').erase (h.not_mem_handles hx hr' hne) rfl rfl
  · intro n g hg
    obtain ⟨r', hr', hrn⟩ := h.file hg
    rw [get?_set]
    split
    · rename_i hl
      rw [← hl, hr] at hr'
      cases hr'
      exact ⟨_, rfl, hrn⟩
    · exact ⟨r', hr', hrn⟩

theorem Consistent.detach (h : s.Consistent) (hx : get? s.handles id = some x) :
    (s.detach id x).Consistent := by
  obtain ⟨f, r, hf, hr, -, -⟩ := h.handle hx
  by_cases hrest : r.handles.filter (· != id) = []
  · rw [h.detach_last hf hr hrest]
    exact h.erase_last hx hf hr hrest
  · rw [h.detach_shared hf hr hrest]
    exact h.erase_shared hx hf hr hrest

theorem Consistent.close (h : s.Consistent) (id : HandleId) : (s.close id).Consistent := by
  unfold Server.close
  split
  · exact h
  · rename_i x hx
    have hd := h.detach hx
    simp only
    split
    · exact hd
    · exact hd.with_locks _

/-! What closing leaves alone. -/

theorem unregister_eq (s : Server) (p : TablePath) (id : HandleId) (mode : OpenMode) :
    ∃ registry, s.unregister p id mode = { s with registry } := by
  unfold unregister
  split
  · exact ⟨s.registry, rfl⟩
  · exact ⟨_, rfl⟩

theorem forget_eq (s : Server) (n : FileId) :
    s.forget n = s ∨ s.forget n = { s with files := erase s.files n } := by
  unfold forget
  split
  · exact .inl rfl
  · exact .inr rfl

theorem detach_eq (s : Server) (id : HandleId) (x : Handle) : ∃ registry files,
    s.detach id x = { s with handles := erase s.handles id, registry, files } ∧
      (files = s.files ∨ files = erase s.files x.file) := by
  unfold Server.detach
  simp only
  split
  · exact ⟨_, _, rfl, .inl rfl⟩
  · rename_i f hf
    obtain ⟨registry, hr⟩ :=
      unregister_eq { s with handles := erase s.handles id } f.path id x.mode
    rw [hr]
    rcases forget_eq { s with handles := erase s.handles id, registry } x.file with he | he
    · exact ⟨registry, s.files, he, .inl rfl⟩
    · exact ⟨registry, _, he, .inr rfl⟩

theorem close_eq (s : Server) (id : HandleId) : ∃ registry files locks,
    s.close id = { s with handles := erase s.handles id, registry, files, locks } ∧
      (files = s.files ∨ ∃ x, get? s.handles id = some x ∧ files = erase s.files x.file) := by
  unfold Server.close
  split
  · rename_i hx
    refine ⟨s.registry, s.files, s.locks, ?_, .inl rfl⟩
    rw [erase_of_get?_none hx]
  · rename_i x hx
    obtain ⟨registry, files, hd, hfiles⟩ := detach_eq s id x
    rw [hd]
    simp only
    split
    · exact ⟨registry, files, s.locks, rfl, hfiles.imp_right fun h => ⟨x, hx, h⟩⟩
    · exact ⟨registry, files, _, rfl, hfiles.imp_right fun h => ⟨x, hx, h⟩⟩

@[simp] theorem close_connections (s : Server) (id : HandleId) :
    (s.close id).connections = s.connections := by
  obtain ⟨_, _, _, h, -⟩ := close_eq s id
  rw [h]

@[simp] theorem close_nextId (s : Server) (id : HandleId) : (s.close id).nextId = s.nextId := by
  obtain ⟨_, _, _, h, -⟩ := close_eq s id
  rw [h]

@[simp] theorem close_config (s : Server) (id : HandleId) : (s.close id).config = s.config := by
  obtain ⟨_, _, _, h, -⟩ := close_eq s id
  rw [h]

theorem get?_handles_close (s : Server) (id k : HandleId) :
    get? (s.close id).handles k = if id = k then none else get? s.handles k := by
  obtain ⟨_, _, _, h, -⟩ := close_eq s id
  rw [h]
  exact get?_erase _ _ _

theorem get?_files_of_close (h : get? (s.close id).files n = some f) :
    get? s.files n = some f := by
  obtain ⟨_, files, _, he, hfiles⟩ := close_eq s id
  rw [he] at h
  rcases hfiles with rfl | ⟨x, -, rfl⟩
  · exact h
  · exact (get?_erase_eq_some.1 h).2

structure Reduced (s : Server) (ids : List HandleId) (t : Server) : Prop where
  connections : t.connections = s.connections
  nextId : t.nextId = s.nextId
  config : t.config = s.config
  handles : ∀ k, get? t.handles k = if k ∈ ids then none else get? s.handles k
  files : ∀ n f, get? t.files n = some f → get? s.files n = some f

theorem reduced_foldl_close (ids : List HandleId) (s : Server) :
    s.Reduced ids (ids.foldl close s) := by
  induction ids generalizing s with
  | nil => exact ⟨rfl, rfl, rfl, fun k => by simp, fun _ _ h => h⟩
  | cons id ids ih =>
    have hr := ih (s.close id)
    rw [List.foldl_cons]
    refine ⟨by simp [hr.connections], by simp [hr.nextId], by simp [hr.config], ?_, ?_⟩
    · intro k
      rw [hr.handles, get?_handles_close]
      by_cases hk : id = k
      · simp [hk]
      · simp [hk, show k ≠ id from fun h => hk h.symm]
    · intro n f h
      exact get?_files_of_close (hr.files n f h)

theorem Consistent.foldl_close (h : s.Consistent) (ids : List HandleId) :
    (ids.foldl Server.close s).Consistent := by
  induction ids generalizing s with
  | nil => exact h
  | cons id ids ih => exact ih (h.close id)

theorem mem_handlesOf : k ∈ s.handlesOf c → ∃ x, (k, x) ∈ s.handles ∧ x.connection = c := by
  intro hk
  obtain ⟨⟨k', x⟩, hmem, rfl⟩ := List.mem_map.1 hk
  obtain ⟨hmem, hc⟩ := List.mem_filter.1 hmem
  exact ⟨x, hmem, by simpa using hc⟩

theorem handlesOf_complete (hx : get? s.handles k = some x) (hc : x.connection = c) :
    k ∈ s.handlesOf c :=
  List.mem_map.2 ⟨(k, x), List.mem_filter.2 ⟨mem_of_get? hx, by simpa using hc⟩, rfl⟩

structure Left (s : Server) (c : ConnectionId) (t : Server) : Prop where
  connections : t.connections = s.connections.filter (· != c)
  nextId : t.nextId = s.nextId
  config : t.config = s.config
  handles : ∀ k x, get? t.handles k = some x ↔ get? s.handles k = some x ∧ x.connection ≠ c
  files : ∀ n f, get? t.files n = some f → get? s.files n = some f

theorem Consistent.left_disconnect (h : s.Consistent) (hc : c ∈ s.connections) :
    s.Left c (s.disconnect c) := by
  have hr := reduced_foldl_close (s.handlesOf c)
    { s with connections := s.connections.filter (· != c) }
  unfold disconnect
  rw [if_pos (isConnected_iff.2 hc)]
  refine ⟨hr.connections, hr.nextId, hr.config, ?_, hr.files⟩
  intro k x
  refine (iff_of_eq (congrArg (· = some x) (hr.handles k))).trans ?_
  simp only
  split
  · rename_i hk
    obtain ⟨y, hmem, hyc⟩ := mem_handlesOf hk
    have hy := (mem_iff_get? h.nodup_handles).1 hmem
    simp only [false_iff, not_and, not_not, reduceCtorEq]
    intro hx
    rw [hy] at hx
    cases hx
    exact hyc
  · rename_i hk
    exact ⟨fun hx => ⟨hx, fun hxc => hk (handlesOf_complete hx hxc)⟩, fun hx => hx.1⟩

theorem disconnect_of_not_mem (hc : c ∉ s.connections) : s.disconnect c = s := by
  rw [Server.disconnect, if_neg fun hi => hc (isConnected_iff.1 hi)]

theorem Consistent.get?_files_of_disconnect (h : s.Consistent)
    (hf : get? (s.disconnect c).files n = some f) : get? s.files n = some f := by
  by_cases hc : c ∈ s.connections
  · exact (h.left_disconnect hc).files n f hf
  · rwa [disconnect_of_not_mem hc] at hf

theorem Consistent.disconnect (h : s.Consistent) (c : ConnectionId) :
    (s.disconnect c).Consistent := by
  unfold Server.disconnect
  split
  · exact (h.without_connection.foldl_close _).with_locks _
  · exact h

end Server
end Isam
