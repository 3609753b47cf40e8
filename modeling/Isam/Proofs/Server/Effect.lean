import Isam.Proofs.Disk.Writes
import Isam.Proofs.Lock.Table
import Isam.Proofs.Server.Checks
import Isam.Proofs.Server.Run
import Isam.Proofs.Storage.Rows
namespace Isam

open FiniteMap

variable {h : Host}

/-- All that a call can do to a host. A call that is refused, or that only looks, leaves the server
as it is and the table files too. -/
inductive Effect (h : Host) : Request → Host → Prop
  | unchanged (r : Request) {d : Disk} (kept : h.disk.Keeps d) : Effect h r ⟨h.server, d⟩
  | connected (endpoint : String) (k : Credentials) :
    Effect h (.connect endpoint k) { h with server :=
      { h.server with
        nextId := h.server.nextId + 1
        connections := h.server.connections ++ [h.server.nextId] } }
  | disconnected (c : ConnectionId) :
    Effect h (.disconnect c) { h with server := h.server.disconnect c }
  | created {c : ConnectionId} {a : TableAddress} {s : Schema} {p : TablePath} {d : Disk}
    (m : CreateMode) (live : c ∈ h.server.connections) (valid : s.numbered.validate = .ok ())
    (known : d.key? (h.server.path a) = some p) (free : get? h.server.registry p = none)
    (saved : h.disk.Replaced p.place (TableFile.encode (.ofSchema s.numbered)) d)
    (answer : h.createTable c a s m =
      (.ok (h.server.registerNew c p (.ofSchema s.numbered) .normal).1,
        ⟨(h.server.registerNew c p (.ofSchema s.numbered) .normal).2, d⟩))
    (fresh : m ≠ .overwrite → h.disk.node? p.place = none) :
    Effect h (.createTable c a s m)
      ⟨(h.server.registerNew c p (.ofSchema s.numbered) .normal).2, d⟩
  | joined {c : ConnectionId} {a : TableAddress} {m : OpenMode} {r : Registration}
    (live : c ∈ h.server.connections)
    (found : get? h.server.registry (h.disk.resolve (h.server.path a)) = some r)
    (shared : r.exclusive = false) (alone : m = .exclusive → r.handles = []) :
    Effect h (.openTable c a m) { h with server :=
      (h.server.register c (h.disk.resolve (h.server.path a)) r.file m).2 }
  | loaded {c : ConnectionId} {a : TableAddress} {m : OpenMode} {p : TablePath} {i : Image}
    {bs : List UInt8} {verify : Bool} (live : c ∈ h.server.connections)
    (known : h.disk.key? (h.server.path a) = some p) (free : get? h.server.registry p = none)
    (bytes : h.disk.bytes? p.place = some bs) (decoded : TableFile.decode bs verify = .ok i) :
    Effect h (.openTable c a m) { h with server := (h.server.registerNew c p i m).2 }
  | closed (id : HandleId) : Effect h (.closeTable id) { h with server := h.server.close id }
  | wrote {id : HandleId} {target : Option RowId} {row : Row} {x : Handle} {f : OpenFile} {d : Disk}
    (allowed : h.server.WriteAllowed id target row x f)
    (answer : (h.writeRow id target row).1 = .ok (f.image.store target row).1)
    (saved : h.disk.Replaced f.location (TableFile.encode (f.image.store target row).2) d) :
    Effect h (.writeRow id target row)
      ⟨h.server.setImage x.file f (f.image.store target row).2, d⟩
  | deleted {id : HandleId} {r : RowId} {x : Handle} {f : OpenFile} {row : Row} {d : Disk}
    (allowed : h.server.DeleteAllowed id r x f row) (answer : (h.deleteRow id r).1 = .ok ())
    (saved : h.disk.Replaced f.location (TableFile.encode (f.image.remove r)) d) :
    Effect h (.deleteRow id r) ⟨h.server.setImage x.file f (f.image.remove r), d⟩
  | locked {c : ConnectionId} {m : LockMode} {k : LockKind} (live : c ∈ h.server.connections)
    (kind : m.kind? = some k) (free : h.server.locks.conflictingHolder? c .session k = none) :
    Effect h (.lock c m)
      { h with server := { h.server with locks := h.server.locks.grant c .session k } }
  | unlocked {r : Request} {c : ConnectionId} (asked : r = .unlock c ∨ r = .lock c .free) :
    Effect h r { h with server := h.server.unlock c }
  | rowLocked {id : HandleId} {r : RowId} {m : LockMode} {x : Handle} {f : OpenFile} {k : LockKind}
    (handle : get? h.server.handles id = some x) (file : get? h.server.files x.file = some f)
    (kind : m.kind? = some k) (stored : f.image.rows.contains r = true)
    (free : h.server.locks.conflictingHolder? x.connection (.row x.file r) k = none) :
    Effect h (.lockRow id r m) { h with server :=
      { h.server with locks := h.server.locks.grant x.connection (.row x.file r) k } }
  | rowUnlocked {id : HandleId} {r : RowId} {x : Handle} (m : LockMode)
    (handle : get? h.server.handles id = some x) :
    Effect h (.lockRow id r m) { h with server :=
      { h.server with locks := (h.server.locks.release x.connection (.row x.file r)).2 } }

theorem LockMode.kind?_eq_none {m : LockMode} : m.kind? = none ↔ m = .free := by
  cases m <;> simp [kind?]

namespace Server

theorem connect_cases (s : Server) (endpoint : String) (k : Credentials) :
    (∃ e, s.connect endpoint k = (.error e, s)) ∨
    s.connect endpoint k = (.ok s.nextId, { s with
      nextId := s.nextId + 1
      connections := s.connections ++ [s.nextId] }) := by
  unfold connect
  split
  · exact .inl ⟨_, rfl⟩
  · split
    · exact .inl ⟨_, rfl⟩
    · exact .inr rfl

theorem lock_cases (s : Server) (c : ConnectionId) (m : LockMode) :
    (∃ e, s.lock c m = (.error e, s)) ∨
    (m = .free ∧ s.lock c m = (.ok (), s.unlock c)) ∨
    ∃ k, c ∈ s.connections ∧ m.kind? = some k ∧ s.locks.conflictingHolder? c .session k = none ∧
      s.lock c m = (.ok (), { s with locks := s.locks.grant c .session k }) := by
  unfold lock
  split
  · exact .inl ⟨_, rfl⟩
  · rename_i hc
    have live := checkConnection_eq_ok.1 hc
    split
    · rename_i hk
      exact .inr (.inl ⟨LockMode.kind?_eq_none.1 hk, rfl⟩)
    · rename_i k hk
      simp only [acquire, LockTable.acquire_eq]
      split
      · exact .inl ⟨_, rfl⟩
      · rename_i hfree
        exact .inr (.inr ⟨k, live, hk, hfree, rfl⟩)

end Server

namespace Effect

theorem same (r : Request) : Effect h r h := .unchanged r (.refl _)

theorem of_connect (endpoint : String) (k : Credentials) :
    Effect h (.connect endpoint k) (h.perform (.connect endpoint k)) := by
  simp only [Host.perform, Host.engine, Host.served]
  rcases h.server.connect_cases endpoint k with ⟨e, hrefused⟩ | hconnected
  · rw [hrefused]
    exact same _
  · rw [hconnected]
    exact .connected endpoint k

theorem of_lock (c : ConnectionId) (m : LockMode) :
    Effect h (.lock c m) (h.perform (.lock c m)) := by
  simp only [Host.perform, Host.engine, Host.served]
  rcases h.server.lock_cases c m with ⟨e, hrefused⟩ | ⟨rfl, hfreed⟩ | ⟨k, live, hk, hfree, hlocked⟩
  · rw [hrefused]
    exact same _
  · rw [hfreed]
    exact .unlocked (.inr rfl)
  · rw [hlocked]
    exact .locked live hk hfree

theorem of_lockRow (id : HandleId) (r : RowId) (m : LockMode) :
    Effect h (.lockRow id r m) (h.perform (.lockRow id r m)) := by
  simp only [Host.perform, Host.engine, Host.served, Server.lockRow]
  cases ho : h.server.opened id with
  | error e => exact same _
  | ok p =>
    obtain ⟨x, f⟩ := p
    obtain ⟨hx, hf⟩ := Server.opened_eq_ok.1 ho
    cases hk : m.kind? with
    | none => exact .rowUnlocked m hx
    | some k =>
      simp only
      split
      · rename_i hr
        simp only [Server.acquire, LockTable.acquire_eq]
        split
        · exact same _
        · rename_i hfree
          exact .rowLocked hx hf hk hr hfree
      · exact same _

theorem spares_makeParent (d : Disk) (p : Path) : d.Spares (Host.makeParent d p).2 none := by
  unfold Host.makeParent
  split
  · exact Disk.spares_makeDirectories d _
  · exact .refl d

theorem checkFree_eq_ok {a : TableAddress} {m : CreateMode} {p : TablePath} :
    h.checkFree a m p = .ok () ↔ get? h.server.registry p = none ∧
      (m ≠ .overwrite → h.disk.node? p.place = none) := by
  unfold Host.checkFree
  split
  · rename_i hopen
    have hne : get? h.server.registry p ≠ none := Option.isSome_iff_ne_none.1 hopen
    simp [hne]
  · rename_i hclosed
    have hnone : get? h.server.registry p = none := by simpa [contains] using hclosed
    split
    · rename_i hfound
      simp [hnone, hfound.2, Option.isSome_iff_ne_none.1 hfound.1]
    · rename_i hfresh
      simp only [hnone, true_and, true_iff]
      intro hm
      simpa [hm] using hfresh

theorem createTable_cases (c : ConnectionId) (a : TableAddress) (s : Schema) (m : CreateMode) :
    (∃ e d leftover, h.createTable c a s m = (.error e, ⟨h.server, d⟩) ∧
      h.disk.Spares d leftover) ∨
    ∃ p d, h.createTable c a s m =
        (.ok (h.server.registerNew c p (.ofSchema s.numbered) .normal).1,
          ⟨(h.server.registerNew c p (.ofSchema s.numbered) .normal).2, d⟩) ∧
      c ∈ h.server.connections ∧ s.numbered.validate = .ok () ∧
      d.key? (h.server.path a) = some p ∧ get? h.server.registry p = none ∧
      h.disk.Replaced p.place (TableFile.encode (.ofSchema s.numbered)) d ∧
      (m ≠ .overwrite → h.disk.node? p.place = none) := by
  simp only [Host.createTable]
  cases hc : h.server.checkConnection c with
  | error e => exact .inl ⟨e, h.disk, none, rfl, .refl _⟩
  | ok u =>
    cases hv : s.numbered.validate with
    | error e => exact .inl ⟨e, h.disk, none, rfl, .refl _⟩
    | ok u =>
      have hmade := spares_makeParent h.disk (h.server.path a)
      generalize Host.makeParent h.disk (h.server.path a) = made at hmade
      obtain ⟨made, e⟩ := made
      cases hp : if made = true then e.key? (h.server.path a) else none with
      | none => exact .inl ⟨.diskFailure, e, none, rfl, hmade⟩
      | some p =>
        have hknown : e.key? (h.server.path a) = some p := by
          split at hp
          · exact hp
          · cases hp
        simp only
        cases hf : Host.checkFree ⟨h.server, e⟩ a m p with
        | error err => exact .inl ⟨err, e, none, rfl, hmade⟩
        | ok u =>
          simp only [Host.createAt]
          cases hd : e.replace p.place (TableFile.encode (.ofSchema s.numbered)) with
          | mk written d =>
            cases written with
            | false =>
              obtain ⟨leftover, hspared⟩ := Disk.replace_false hd
              exact .inl ⟨.diskFailure, d, leftover, rfl, hmade.trans hspared⟩
            | true =>
              have written := Disk.replace_true hd
              obtain ⟨free, fresh⟩ := checkFree_eq_ok.1 hf
              exact .inr ⟨p, d, rfl, Server.checkConnection_eq_ok.1 hc, trivial,
                written.directories.key? hknown, free, hmade.keeps.replaced written,
                fun hm => hmade.node?_eq_none (fresh hm)⟩

theorem createTable_made {h' : Host} {c : ConnectionId} {a : TableAddress} {s : Schema}
    {m : CreateMode} {id : HandleId} (created : h.createTable c a s m = (.ok id, h')) :
    ∃ p d, id = (h.server.registerNew c p (.ofSchema s.numbered) .normal).1 ∧
      h' = ⟨(h.server.registerNew c p (.ofSchema s.numbered) .normal).2, d⟩ ∧
      s.numbered.validate = .ok () ∧ d.key? (h.server.path a) = some p ∧
      get? h.server.registry p = none ∧
      h.disk.Replaced p.place (TableFile.encode (.ofSchema s.numbered)) d := by
  rcases createTable_cases c a s m with ⟨e, d, leftover, hrefused, -⟩ |
    ⟨p, d, hmade, -, valid, known, free, saved, -⟩
  · rw [hrefused] at created
    cases created
  · rw [hmade] at created
    cases created
    exact ⟨p, d, rfl, rfl, valid, known, free, saved⟩

theorem of_createTable (c : ConnectionId) (a : TableAddress) (s : Schema) (m : CreateMode) :
    Effect h (.createTable c a s m) (h.perform (.createTable c a s m)) := by
  have hanswer : h.perform (.createTable c a s m) = (h.createTable c a s m).2 := rfl
  rw [hanswer]
  rcases createTable_cases c a s m with ⟨e, d, leftover, hrefused, spared⟩ |
    ⟨p, d, hmade, live, valid, known, free, saved, fresh⟩
  · rw [hrefused]
    exact .unchanged _ spared.keeps
  · rw [hmade]
    exact .created m live valid known free saved hmade fresh

theorem checkShared_eq_ok {a : TableAddress} {m : OpenMode} {r : Registration} :
    Host.checkShared a m r = .ok () ↔
      r.exclusive = false ∧ (m = .exclusive → r.handles = []) := by
  unfold Host.checkShared
  split
  · simp_all
  · split <;> simp_all

theorem load_eq_ok {a : TableAddress} {m : OpenMode} {i : Image} (hl : h.load a m = .ok i) :
    ∃ p bs verify, h.disk.key? (h.server.path a) = some p ∧ h.disk.bytes? p.place = some bs ∧
      TableFile.decode bs verify = .ok i := by
  unfold Host.load at hl
  split at hl
  · cases hl
  · rename_i p hknown
    split at hl
    · cases hl
    · cases hl
    · rename_i bs hnode
      exact ⟨p, bs, _, hknown, by rw [Disk.bytes?, hnode], hl⟩

inductive Opened (h : Host) (c : ConnectionId) (a : TableAddress) (m : OpenMode) :
    HandleId → Host → Prop
  | joined {r : Registration} (live : c ∈ h.server.connections)
    (found : get? h.server.registry (h.disk.resolve (h.server.path a)) = some r)
    (shared : r.exclusive = false) (alone : m = .exclusive → r.handles = []) :
    Opened h c a m h.server.nextId { h with server :=
      (h.server.register c (h.disk.resolve (h.server.path a)) r.file m).2 }
  | loaded {p : TablePath} {i : Image} {bs : List UInt8} {verify : Bool}
    (live : c ∈ h.server.connections) (known : h.disk.key? (h.server.path a) = some p)
    (free : get? h.server.registry p = none) (bytes : h.disk.bytes? p.place = some bs)
    (decoded : TableFile.decode bs verify = .ok i) :
    Opened h c a m (h.server.nextId + 1) { h with server := (h.server.registerNew c p i m).2 }

theorem openTable_cases (c : ConnectionId) (a : TableAddress) (m : OpenMode) :
    (∃ e, h.openTable c a m = (.error e, h)) ∨
    ∃ id h', h.openTable c a m = (.ok id, h') ∧ Opened h c a m id h' := by
  simp only [Host.openTable]
  cases hc : h.server.checkConnection c with
  | error e => exact .inl ⟨e, rfl⟩
  | ok u =>
    have live := Server.checkConnection_eq_ok.1 hc
    cases hr : get? h.server.registry (h.disk.resolve (h.server.path a)) with
    | some r =>
      simp only
      cases hs : Host.checkShared a m r with
      | error e => exact .inl ⟨e, rfl⟩
      | ok u =>
        obtain ⟨hshared, halone⟩ := checkShared_eq_ok.1 hs
        exact .inr ⟨_, _, rfl, .joined live hr hshared halone⟩
    | none =>
      simp only
      cases hl : h.load a m with
      | error e => exact .inl ⟨e, rfl⟩
      | ok i =>
        obtain ⟨p, bs, verify, hknown, hbytes, hdecoded⟩ := load_eq_ok hl
        rw [Disk.resolve_of_key? hknown] at hr ⊢
        exact .inr ⟨_, _, rfl, .loaded live hknown hr hbytes hdecoded⟩

theorem openTable_opened {h' : Host} {c : ConnectionId} {a : TableAddress} {m : OpenMode}
    {id : HandleId} (opened : h.openTable c a m = (.ok id, h')) : Opened h c a m id h' := by
  rcases openTable_cases c a m with ⟨e, hrefused⟩ | ⟨k, g, hopened, how⟩
  · rw [hrefused] at opened
    cases opened
  · rw [hopened] at opened
    cases opened
    exact how

theorem of_openTable (c : ConnectionId) (a : TableAddress) (m : OpenMode) :
    Effect h (.openTable c a m) (h.perform (.openTable c a m)) := by
  have hanswer : h.perform (.openTable c a m) = (h.openTable c a m).2 := rfl
  rw [hanswer]
  rcases openTable_cases c a m with ⟨e, hrefused⟩ | ⟨id, h', hopened, how⟩
  · rw [hrefused]
    exact same _
  · rw [hopened]
    cases how with
    | joined live found shared alone => exact .joined live found shared alone
    | loaded live known free bytes decoded => exact .loaded live known free bytes decoded

theorem setImage_setImage {s : Server} {file : FileId} {f : OpenFile}
    (hf : get? s.files file = some f) (i : Image) :
    (s.setImage file f i).setImage file f f.image = s := by
  simp [Server.setImage, set_set, set_get? hf]

theorem writeRow_eq {id : HandleId} {target : Option RowId} {row : Row} {x : Handle} {f : OpenFile}
    (allowed : h.server.WriteAllowed id target row x f) :
    h.writeRow id target row =
      match h.disk.replace f.location (TableFile.encode (f.image.store target row).2) with
      | (true, d) => (.ok (f.image.store target row).1,
          ⟨h.server.setImage x.file f (f.image.store target row).2, d⟩)
      | (false, d) => (.error .diskFailure, ⟨h.server, d⟩) := by
  simp only [Host.writeRow, Server.checkWrite_eq_ok.2 allowed, Host.rewrite]
  obtain ⟨written, d⟩ := h.disk.replace f.location (TableFile.encode (f.image.store target row).2)
  cases written with
  | true => rfl
  | false => simp only [Image.takeBack_store, setImage_setImage allowed.file]

theorem writeRow_cases (id : HandleId) (target : Option RowId) (row : Row) :
    (∃ e d, h.writeRow id target row = (.error e, ⟨h.server, d⟩) ∧ h.disk.Keeps d) ∨
    ∃ x f d, h.writeRow id target row = (.ok (f.image.store target row).1,
          ⟨h.server.setImage x.file f (f.image.store target row).2, d⟩) ∧
      h.server.WriteAllowed id target row x f ∧
      h.disk.Replaced f.location (TableFile.encode (f.image.store target row).2) d := by
  cases hc : h.server.checkWrite id target row with
  | error e => exact .inl ⟨e, h.disk, by simp only [Host.writeRow, hc], .refl _⟩
  | ok p =>
    obtain ⟨x, f⟩ := p
    have allowed := Server.checkWrite_eq_ok.1 hc
    have hw := writeRow_eq allowed
    cases hd : h.disk.replace f.location (TableFile.encode (f.image.store target row).2) with
    | mk written d =>
      rw [hd] at hw
      cases written with
      | false =>
        obtain ⟨leftover, spared⟩ := Disk.replace_false hd
        exact .inl ⟨.diskFailure, d, hw, spared.keeps⟩
      | true => exact .inr ⟨x, f, d, hw, allowed, Disk.replace_true hd⟩

theorem of_writeRow (id : HandleId) (target : Option RowId) (row : Row) :
    Effect h (.writeRow id target row) (h.perform (.writeRow id target row)) := by
  have hanswer : h.perform (.writeRow id target row) = (h.writeRow id target row).2 := rfl
  rw [hanswer]
  rcases writeRow_cases id target row with ⟨e, d, hrefused, kept⟩ | ⟨x, f, d, hmade, allowed, saved⟩
  · rw [hrefused]
    exact .unchanged _ kept
  · rw [hmade]
    exact .wrote allowed (by rw [hmade]) saved

theorem deleteRow_eq {id : HandleId} {r : RowId} {x : Handle} {f : OpenFile} {row : Row}
    (allowed : h.server.DeleteAllowed id r x f row) :
    h.deleteRow id r =
      match h.disk.replace f.location (TableFile.encode (f.image.remove r)) with
      | (true, d) => (.ok (), ⟨h.server.setImage x.file f (f.image.remove r), d⟩)
      | (false, d) => (.error .diskFailure, ⟨h.server, d⟩) := by
  simp only [Host.deleteRow, Server.checkDelete_eq_ok.2 allowed, Host.rewrite]
  obtain ⟨written, d⟩ := h.disk.replace f.location (TableFile.encode (f.image.remove r))
  cases written with
  | true => rfl
  | false => simp only [Image.putBack_remove allowed.stored, setImage_setImage allowed.file]

theorem of_deleteRow (id : HandleId) (r : RowId) :
    Effect h (.deleteRow id r) (h.perform (.deleteRow id r)) := by
  have hanswer : h.perform (.deleteRow id r) = (h.deleteRow id r).2 := rfl
  rw [hanswer]
  cases hc : h.server.checkDelete id r with
  | error e =>
    simp only [Host.deleteRow, hc]
    exact same _
  | ok p =>
    obtain ⟨x, f, row⟩ := p
    have allowed := Server.checkDelete_eq_ok.1 hc
    have hw := deleteRow_eq allowed
    cases hd : h.disk.replace f.location (TableFile.encode (f.image.remove r)) with
    | mk written d =>
      rw [hd] at hw
      cases written with
      | false =>
        obtain ⟨leftover, spared⟩ := Disk.replace_false hd
        rw [hw]
        exact .unchanged _ spared.keeps
      | true =>
        rw [hw]
        exact .deleted allowed (by rw [hw]) (Disk.replace_true hd)

end Effect

theorem Effect.directories {h' : Host} {r : Request} (e : Effect h r h') :
    h.disk.KeepsDirectories h'.disk := by
  cases e with
  | unchanged _ kept => exact kept.directories
  | created _ _ _ _ _ saved => exact saved.directories
  | wrote _ _ saved => exact saved.directories
  | deleted _ _ saved => exact saved.directories
  | connected | disconnected | joined | loaded | closed | locked | unlocked | rowLocked |
    rowUnlocked => exact .refl _

theorem Host.perform_effect (h : Host) (r : Request) : Effect h r (h.perform r) := by
  cases r with
  | connect endpoint k => exact .of_connect endpoint k
  | disconnect c => exact .disconnected c
  | createTable c a s m => exact .of_createTable c a s m
  | openTable c a m => exact .of_openTable c a m
  | closeTable id => exact .closed id
  | writeRow id target row => exact .of_writeRow id target row
  | deleteRow id r => exact .of_deleteRow id r
  | lock c m => exact .of_lock c m
  | unlock c => exact .unlocked (.inl rfl)
  | lockRow id r m => exact .of_lockRow id r m
  | readSchema | moveCursor | readRow | isLocked => exact .same _

theorem Host.directories_run (h : Host) (es : List Event) :
    h.disk.KeepsDirectories (h.run es).disk := by
  refine run_keeps (P := fun h' => h.disk.KeepsDirectories h'.disk) ?_ es (.refl _)
  intro h' e hkept
  cases e with
  | call r => exact hkept.trans (h'.perform_effect r).directories
  | device | restart => exact hkept

end Isam
