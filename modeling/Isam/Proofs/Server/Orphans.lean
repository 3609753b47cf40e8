import Isam.Proofs.Server.Handles
import Isam.Proofs.Server.Locking
namespace Isam

open FiniteMap

variable {h h' : Host} {c o : ConnectionId} {id : HandleId} {x : Handle} {r : LockResource}

namespace Server

variable {s : Server}

def SessionsLive (s : Server) : Prop :=
  ∀ o k, (o, k) ∈ s.locks.holdersOf .session → o ∈ s.connections

def OpenBeside (s : Server) (id : HandleId) (x : Handle) : Prop :=
  ∃ k y, k ≠ id ∧ get? s.handles k = some y ∧ y.connection = x.connection ∧ y.file = x.file

theorem Numbered.hasOpen_iff_openBeside (hs : s.Numbered) :
    Server.hasOpen { s with handles := erase s.handles id } x.connection x.file = true ↔
      s.OpenBeside id x := by
  rw [hasOpen_iff (nodup_keys_erase hs.nodup_handles id)]
  constructor
  · rintro ⟨k, y, hy, hc, hf⟩
    obtain ⟨hk, hy⟩ := get?_erase_eq_some.1 hy
    exact ⟨k, y, Ne.symm hk, hy, hc, hf⟩
  · rintro ⟨k, y, hk, hy, hc, hf⟩
    exact ⟨k, y, get?_erase_eq_some.2 ⟨Ne.symm hk, hy⟩, hc, hf⟩

theorem close_of_closed (hx : get? s.handles id = none) : s.close id = s := by
  rw [Server.close, hx]

theorem locks_close_beside (hs : s.Numbered) (hx : get? s.handles id = some x)
    (beside : s.OpenBeside id x) : (s.close id).locks = s.locks := by
  rw [close_locks hx, if_pos (hs.hasOpen_iff_openBeside.2 beside)]

theorem Guarded.holds?_close_last (h : s.Guarded) (hs : s.Numbered)
    (hx : get? s.handles id = some x) (last : ¬ s.OpenBeside id x) :
    (s.close id).locks.holds? o r =
      if o = x.connection ∧ r.isRowOf x.file = true then none else s.locks.holds? o r := by
  rw [close_locks hx, if_neg fun hopen => last (hs.hasOpen_iff_openBeside.1 hopen),
    h.indexed.holds?_releaseRows]

theorem Guarded.holds?_close_other (h : s.Guarded) (hs : s.Numbered)
    (other : ∀ x, get? s.handles id = some x → o ≠ x.connection) :
    (s.close id).locks.holds? o r = s.locks.holds? o r := by
  cases hx : get? s.handles id with
  | none => rw [close_of_closed hx]
  | some x =>
    by_cases beside : s.OpenBeside id x
    · rw [locks_close_beside hs hx beside]
    · rw [h.holds?_close_last hs hx beside, if_neg fun ho => other x hx ho.1]

theorem Guarded.holds?_foldl_close_other (h : s.Guarded) (hs : s.Consistent) (ids : List HandleId)
    (other : ∀ id ∈ ids, ∀ x, get? s.handles id = some x → o ≠ x.connection) :
    (ids.foldl Server.close s).locks.holds? o r = s.locks.holds? o r := by
  induction ids generalizing s with
  | nil => rfl
  | cons id ids ih =>
    rw [List.foldl_cons, ih (h.close hs.toNumbered id) (hs.close id),
      h.holds?_close_other hs.toNumbered (other id List.mem_cons_self)]
    intro k hk x hx
    rw [get?_handles_close] at hx
    split at hx
    · cases hx
    · exact other k (List.mem_cons_of_mem _ hk) x hx

theorem Guarded.holds?_disconnect (h : s.Guarded) (hs : s.Consistent) (hc : c ∈ s.connections) :
    (s.disconnect c).locks.holds? o r = if o = c then none else s.locks.holds? o r := by
  let t : Server := { s with connections := s.connections.filter (· != c) }
  have ht : t.Consistent := hs.without_connection
  have hg : t.Guarded := h.of_handles rfl fun _ _ hx => hx
  have hlocks : (s.disconnect c).locks = ((s.handlesOf c).foldl Server.close t).locks.releaseAll c := by
    rw [Server.disconnect, if_pos (isConnected_iff.2 hc)]
    rfl
  rw [hlocks, (hg.foldl_close ht _).indexed.holds?_releaseAll]
  split
  · rfl
  · rename_i hne
    refine hg.holds?_foldl_close_other ht _ fun id hid x hx => ?_
    obtain ⟨y, hmem, hyc⟩ := mem_handlesOf hid
    have hy := (mem_iff_get? hs.nodup_handles).1 hmem
    cases hy.symm.trans hx
    exact hyc ▸ hne

theorem Registered.get?_files_disconnect (h : s.Registered) (hc : c ∈ s.connections) {n : FileId}
    {f : OpenFile} : get? (s.disconnect c).files n = some f ↔ get? s.files n = some f ∧
      ∃ k y, get? s.handles k = some y ∧ y.connection ≠ c ∧ y.file = n := by
  have left := h.left_disconnect hc
  have inv := h.disconnect c
  constructor
  · intro hf
    obtain ⟨r, hr, hn⟩ := inv.file hf
    obtain ⟨k, hk⟩ := List.exists_mem_of_ne_nil _ (inv.registration hr).occupied
    obtain ⟨y, hy, hyf⟩ := (inv.registration hr).handles k hk
    obtain ⟨hy, hne⟩ := (left.handles k y).1 hy
    exact ⟨left.files n f hf, k, y, hy, hne, hyf.trans hn⟩
  · rintro ⟨hf, k, y, hy, hne, rfl⟩
    obtain ⟨g, -, hg, -⟩ := inv.handle ((left.handles k y).2 ⟨hy, hne⟩)
    have hfg := left.files _ g hg
    rw [hf] at hfg
    cases hfg
    exact hg

end Server

open Server

theorem Effect.sessionsLive {q : Request} (e : Effect h q h') (inv : h.server.Registered)
    (guarded : h.server.Guarded) (live : h.server.SessionsLive) : h'.server.SessionsLive := by
  intro o k hk
  cases e with
  | unchanged | created | joined | loaded | wrote | deleted => exact live o k hk
  | connected => exact List.mem_append_left _ (live o k hk)
  | disconnected c =>
    by_cases hc : c ∈ h.server.connections
    · have hheld := guarded.holds?_disconnect (o := o) (r := .session) inv.toConsistent hc
      have hsome := LockTable.holds?_isSome.2 ⟨k, hk⟩
      rw [hheld] at hsome
      split at hsome
      · cases hsome
      · rename_i hne
        obtain ⟨j, hj⟩ := LockTable.holds?_isSome.1 hsome
        rw [(inv.left_disconnect hc).connections]
        exact List.mem_filter.2 ⟨live o j hj, bne_iff_ne.2 hne⟩
    · rw [disconnect_of_not_mem hc] at hk ⊢
      exact live o k hk
  | closed id =>
    rw [close_connections]
    exact live o k (mem_locks_of_close hk)
  | locked alive =>
    rw [LockTable.holdersOf_grant, if_pos rfl] at hk
    rcases List.mem_append.1 hk with hk | hk
    · exact live o k (LockTable.mem_without.1 hk).1
    · cases List.mem_singleton.1 hk
      exact alive
  | unlocked => exact live o k (LockTable.mem_of_releaseAll hk)
  | rowLocked =>
    rw [LockTable.holdersOf_grant, if_neg LockResource.noConfusion] at hk
    exact live o k hk
  | rowUnlocked => exact live o k (LockTable.mem_of_release hk)

namespace Host

structure Sane (h : Host) : Prop where
  registered : h.server.Registered
  guarded : h.server.Guarded
  live : h.server.SessionsLive

theorem sane_start (config : EngineConfig) (disk : Disk) : (start config disk).Sane where
  registered := Server.registered_start config
  guarded := Server.guarded_start config
  live := nofun

theorem Sane.next (sane : h.Sane) (e : Event) : (h.next e).Sane := by
  cases e with
  | call q =>
    have effect := h.perform_effect q
    exact ⟨effect.registered sane.registered, effect.guarded sane.registered sane.guarded,
      effect.sessionsLive sane.registered sane.guarded sane.live⟩
  | device => exact ⟨sane.registered, sane.guarded, sane.live⟩
  | restart config => exact sane_start config h.disk

theorem sane_run (config : EngineConfig) (disk : Disk) (es : List Event) :
    ((start config disk).run es).Sane :=
  run_keeps (P := Sane) (fun _ e sane => sane.next e) es (sane_start config disk)

structure Removes (h : Host) (c : ConnectionId) (h' : Host) : Prop where
  connections : h'.server.connections = h.server.connections.filter (· != c)
  handles : ∀ k y, get? h'.server.handles k = some y ↔
    get? h.server.handles k = some y ∧ y.connection ≠ c
  locks : ∀ o r, h'.server.locks.holds? o r = if o = c then none else h.server.locks.holds? o r
  images : ∀ n f, get? h'.server.files n = some f ↔ get? h.server.files n = some f ∧
    ∃ k y, get? h.server.handles k = some y ∧ y.connection ≠ c ∧ y.file = n
  disk : h'.disk = h.disk

theorem removes_disconnect (inv : h.server.Registered) (guarded : h.server.Guarded)
    (hc : c ∈ h.server.connections) : h.Removes c (h.perform (.disconnect c)) where
  connections := (inv.left_disconnect hc).connections
  handles := (inv.left_disconnect hc).handles
  locks _ _ := guarded.holds?_disconnect inv.toConsistent hc
  images _ _ := inv.get?_files_disconnect hc
  disk := rfl

theorem perform_close_of_closed (hx : get? h.server.handles id = none) :
    h.perform (.closeTable id) = h := by
  have hperform : h.perform (.closeTable id) = { h with server := h.server.close id } := rfl
  rw [hperform, close_of_closed hx]

theorem perform_disconnect_of_gone (hc : c ∉ h.server.connections) :
    h.perform (.disconnect c) = h := by
  have hperform : h.perform (.disconnect c) = { h with server := h.server.disconnect c } := rfl
  rw [hperform, disconnect_of_not_mem hc]

theorem closed_after_close (h : Host) (id : HandleId) :
    get? (h.perform (.closeTable id)).server.handles id = none := by
  have hclosed := get?_handles_close h.server id id
  rw [if_pos rfl] at hclosed
  exact hclosed

theorem gone_after_disconnect (inv : h.server.Registered) (c : ConnectionId) :
    c ∉ (h.perform (.disconnect c)).server.connections := by
  have hperform : (h.perform (.disconnect c)).server = h.server.disconnect c := rfl
  rw [hperform]
  by_cases hc : c ∈ h.server.connections
  · rw [(inv.left_disconnect hc).connections]
    simp
  · rwa [disconnect_of_not_mem hc]

theorem outlives_after (inv : h.server.Registered) (q : Request) {fs : List Event}
    (hfs : ∀ e ∈ fs, e.isRestart = false) : h.server.nextId ≤ (h.perform q).server.nextId ∧
      (h.perform q).server.Outlives ((h.perform q).run fs).server := by
  have e := h.perform_effect q
  exact ⟨(e.outlives inv).nextId, outlives_run (e.registered inv) fs hfs⟩

theorem stays_closed (inv : h.server.Registered) {fs : List Event}
    (hfs : ∀ e ∈ fs, e.isRestart = false) (hid : id < h.server.nextId) :
    get? ((h.perform (.closeTable id)).run fs).server.handles id = none := by
  obtain ⟨hnext, outlives⟩ := outlives_after inv (.closeTable id) hfs
  exact outlives.stays_closed (Nat.lt_of_lt_of_le hid hnext) (closed_after_close h id)

theorem stays_gone (inv : h.server.Registered) {fs : List Event}
    (hfs : ∀ e ∈ fs, e.isRestart = false) (hc : c < h.server.nextId) :
    c ∉ ((h.perform (.disconnect c)).run fs).server.connections := by
  obtain ⟨hnext, outlives⟩ := outlives_after inv (.disconnect c) hfs
  intro hmem
  have hold := outlives.connections c hmem (Nat.lt_of_lt_of_le hc hnext)
  exact gone_after_disconnect inv c hold

/-- In every state that calls of any connections lead to, locks are held by connections that are
live, and locks on rows by those that have the file open. The row locks of a connection on a file go
when its last handle there is closed, and not before; and with a connection all of its handles and
locks go, and nothing of others. What was closed is not closed again, however much later. -/
theorem no_orphaned_locks (config : EngineConfig) (disk : Disk) (es : List Event) :
    let h := (start config disk).run es
    (∀ o r, (h.server.locks.holds? o r).isSome → o ∈ h.server.connections ∧
      ∀ file row, r = .row file row →
        ∃ id x, get? h.server.handles id = some x ∧ x.connection = o ∧ x.file = file) ∧
    (∀ id x, get? h.server.handles id = some x →
      (h.server.OpenBeside id x →
        (h.perform (.closeTable id)).server.locks = h.server.locks) ∧
      (¬ h.server.OpenBeside id x → ∀ o r, (h.perform (.closeTable id)).server.locks.holds? o r =
        if o = x.connection ∧ r.isRowOf x.file then none else h.server.locks.holds? o r)) ∧
    (∀ c ∈ h.server.connections, h.Removes c (h.perform (.disconnect c))) ∧
    (∀ id, (h.perform (.closeTable id)).perform (.closeTable id) = h.perform (.closeTable id)) ∧
    (∀ c, (h.perform (.disconnect c)).perform (.disconnect c) = h.perform (.disconnect c)) ∧
    ∀ fs : List Event, (∀ e ∈ fs, e.isRestart = false) →
      (∀ id < h.server.nextId, ((h.perform (.closeTable id)).run fs).perform (.closeTable id) =
        (h.perform (.closeTable id)).run fs) ∧
      ∀ c < h.server.nextId, ((h.perform (.disconnect c)).run fs).perform (.disconnect c) =
        (h.perform (.disconnect c)).run fs := by
  intro h
  have inv : h.server.Registered := registered_run config disk es
  have guarded : h.server.Guarded := guarded_run config disk es
  have live : h.server.SessionsLive := (sane_run config disk es).live
  refine ⟨?_, ?_, fun c hc => removes_disconnect inv guarded hc, ?_, ?_, ?_⟩
  · intro o r held
    obtain ⟨k, hk⟩ := LockTable.holds?_isSome.1 held
    cases r with
    | session => exact ⟨live o k hk, fun _ _ hr => nomatch hr⟩
    | row file row =>
      obtain ⟨id, x, hx, rfl, rfl⟩ := guarded.opened hk
      refine ⟨inv.live hx, fun file' row' hr => ?_⟩
      cases hr
      exact ⟨id, x, hx, rfl, rfl⟩
  · intro id x hx
    exact ⟨locks_close_beside inv.toNumbered hx,
      fun last o r => guarded.holds?_close_last inv.toNumbered hx last⟩
  · intro id
    exact perform_close_of_closed (closed_after_close h id)
  · intro c
    exact perform_disconnect_of_gone (gone_after_disconnect inv c)
  · intro fs hfs
    exact ⟨fun id hid => perform_close_of_closed (stays_closed inv hfs hid),
      fun c hc => perform_disconnect_of_gone (stays_gone inv hfs hc)⟩

def sharedTable : List Event :=
  [.call (.connect "FAIRCOMS" ⟨"", ""⟩), .call (.connect "FAIRCOMS" ⟨"", ""⟩),
    .call (.createTable 1 ⟨⟨""⟩, "t"⟩ (.ofDecls [⟨"id", .uInteger, 4, 0, .none⟩] []) .normal),
    .call (.writeRow 4 none [.unsigned 7]), .call (.openTable 2 ⟨⟨""⟩, "t"⟩ .normal),
    .call (.lockRow 5 1 .write)]

theorem sharedTable_closes :
    let h := (start {} .empty).run sharedTable
    let closed := h.perform (.closeTable 5)
    get? h.server.handles 5 = some ⟨2, 3, .normal⟩ ∧ ¬ h.server.OpenBeside 5 ⟨2, 3, .normal⟩ ∧
      h.server.locks.holds? 2 (.row 3 1) = some .exclusive ∧
      closed.server.locks.holds? 2 (.row 3 1) = none ∧
      2 ∈ h.server.connections ∧ h.Removes 2 (h.perform (.disconnect 2)) ∧
      5 < h.server.nextId ∧
      (closed.run [.call (.openTable 2 ⟨⟨""⟩, "t"⟩ .normal)]).perform (.closeTable 5) =
        closed.run [.call (.openTable 2 ⟨⟨""⟩, "t"⟩ .normal)] := by
  obtain ⟨-, closing, leaving, -, -, later⟩ := no_orphaned_locks {} .empty sharedTable
  have inv := (registered_run {} .empty sharedTable).toNumbered
  obtain ⟨hx, hopen, hheld, hc, hid⟩ :
      let s := ((start {} .empty).run sharedTable).server
      get? s.handles 5 = some ⟨2, 3, .normal⟩ ∧
        Server.hasOpen { s with handles := erase s.handles 5 } 2 3 = false ∧
        s.locks.holds? 2 (.row 3 1) = some .exclusive ∧ 2 ∈ s.connections ∧ 5 < s.nextId := by
    decide +kernel
  have halone : ¬ ((start {} .empty).run sharedTable).server.OpenBeside 5 ⟨2, 3, .normal⟩ := by
    rw [← inv.hasOpen_iff_openBeside, Bool.not_eq_true]
    exact hopen
  have hgone := (closing 5 _ hx).2 halone 2 (.row 3 1)
  refine ⟨hx, halone, hheld, hgone.trans (if_pos ⟨rfl, rfl⟩), hc, leaving 2 hc, hid,
    (later _ ?_).1 5 hid⟩
  intro e he
  cases List.mem_singleton.1 he
  rfl

end Host
end Isam
