import Isam.Proofs.Server.Effect
namespace Isam

variable {α : Type}

namespace Server

variable {s : Server}

def AllOrNothing (s : Server) (r : Except Error α × Server) : Prop :=
  ∀ e, r.1 = .error e → r.2 = s

theorem AllOrNothing.failed (e : Error) : s.AllOrNothing (α := α) (.error e, s) := fun _ _ => rfl

theorem AllOrNothing.answered (a : α) (t : Server) : s.AllOrNothing (.ok a, t) := nofun

theorem allOrNothing_connect (s : Server) (endpoint : String) (k : Credentials) :
    s.AllOrNothing (s.connect endpoint k) := by
  unfold connect
  split
  · exact .failed _
  · split
    · exact .failed _
    · exact .answered _ _

theorem allOrNothing_acquire (s : Server) (c : ConnectionId) (r : LockResource) (k : LockKind) :
    s.AllOrNothing (s.acquire c r k) := by
  simp only [acquire, LockTable.acquire_eq]
  split
  · exact .failed _
  · exact .answered _ _

theorem allOrNothing_lock (s : Server) (c : ConnectionId) (m : LockMode) :
    s.AllOrNothing (s.lock c m) := by
  unfold lock
  split
  · exact .failed _
  · split
    · exact .answered _ _
    · exact s.allOrNothing_acquire _ _ _

theorem allOrNothing_lockRow (s : Server) (id : HandleId) (r : RowId) (m : LockMode) :
    s.AllOrNothing (s.lockRow id r m) := by
  unfold lockRow
  split
  · exact .failed _
  · split
    · exact .answered _ _
    · split
      · exact s.allOrNothing_acquire _ _ _
      · exact .failed _

end Server

namespace Host

variable {h h' : Host}

/-- The server is as it was, and so is the disk but for new directories and a temporary file. -/
structure Untouched (h h' : Host) : Prop where
  server : h'.server = h.server
  disk : ∃ leftover, h.disk.Spares h'.disk leftover

theorem Untouched.refl (h : Host) : h.Untouched h := ⟨rfl, none, .refl _⟩

def AllOrNothing (h : Host) (r : Except Error α × Host) : Prop :=
  ∀ e, r.1 = .error e → h.Untouched r.2

theorem AllOrNothing.failed {e : Error} (untouched : h.Untouched h') :
    h.AllOrNothing (α := α) (.error e, h') := fun _ _ => untouched

theorem AllOrNothing.answered (a : α) (h' : Host) : h.AllOrNothing (.ok a, h') := nofun

theorem allOrNothing_served {c : Server → Except Error α × Server}
    (hc : ∀ s : Server, s.AllOrNothing (c s)) (h : Host) : h.AllOrNothing (served c h) :=
  fun e he => ⟨hc h.server e he, none, .refl _⟩

theorem allOrNothing_looked (c : Server → Except Error α) (h : Host) :
    h.AllOrNothing (looked c h) := fun _ _ => .refl h

theorem allOrNothing_createTable (h : Host) (c : ConnectionId) (a : TableAddress) (s : Schema)
    (m : CreateMode) : h.AllOrNothing (h.createTable c a s m) := by
  rcases Effect.createTable_cases c a s m with ⟨e, d, leftover, hrefused, spared⟩ |
    ⟨l, d, hmade, -⟩
  · rw [hrefused]
    exact .failed ⟨rfl, leftover, spared⟩
  · rw [hmade]
    exact .answered _ _

theorem allOrNothing_openTable (h : Host) (c : ConnectionId) (a : TableAddress) (m : OpenMode) :
    h.AllOrNothing (h.openTable c a m) := by
  rcases Effect.openTable_cases c a m with ⟨e, hrefused⟩ | ⟨id, h', hopened, -⟩
  · rw [hrefused]
    exact .failed (.refl h)
  · rw [hopened]
    exact .answered _ _

theorem allOrNothing_writeRow (h : Host) (id : HandleId) (target : Option RowId) (row : Row) :
    h.AllOrNothing (h.writeRow id target row) := by
  cases hc : h.server.checkWrite id target row with
  | error e =>
    simp only [writeRow, hc]
    exact .failed (.refl h)
  | ok p =>
    obtain ⟨x, f⟩ := p
    rw [Effect.writeRow_eq (Server.checkWrite_eq_ok.1 hc)]
    split
    · exact .answered _ _
    · rename_i hd
      exact .failed ⟨rfl, Disk.replace_false hd⟩

theorem allOrNothing_deleteRow (h : Host) (id : HandleId) (r : RowId) :
    h.AllOrNothing (h.deleteRow id r) := by
  cases hc : h.server.checkDelete id r with
  | error e =>
    simp only [deleteRow, hc]
    exact .failed (.refl h)
  | ok p =>
    obtain ⟨x, f, row⟩ := p
    rw [Effect.deleteRow_eq (Server.checkDelete_eq_ok.1 hc)]
    split
    · exact .answered _ _
    · rename_i hd
      exact .failed ⟨rfl, Disk.replace_false hd⟩

def failure? : Except Error α → Option Error
  | .ok _ => none
  | .error e => some e

theorem AllOrNothing.untouched {r : Except Error α × Host} {e : Error} (hr : h.AllOrNothing r)
    (failed : failure? r.1 = some e) : h.Untouched r.2 := by
  cases hr1 : r.1 with
  | ok a =>
    rw [hr1] at failed
    cases failed
  | error f => exact hr f hr1

def failureOf (h : Host) : Request → Option Error
  | .connect endpoint c => failure? (engine.connect endpoint c h).1
  | .disconnect c => failure? (engine.disconnect c h).1
  | .createTable c a s m => failure? (engine.createTable c a s m h).1
  | .openTable c a m => failure? (engine.openTable c a m h).1
  | .closeTable id => failure? (engine.closeTable id h).1
  | .readSchema id => failure? (engine.readSchema id h).1
  | .moveCursor id i m => failure? (engine.moveCursor id i m h).1
  | .readRow id r => failure? (engine.readRow id r h).1
  | .writeRow id r row => failure? (engine.writeRow id r row h).1
  | .deleteRow id r => failure? (engine.deleteRow id r h).1
  | .lock c m => failure? (engine.lock c m h).1
  | .unlock c => failure? (engine.unlock c h).1
  | .isLocked _ => none
  | .lockRow id r m => failure? (engine.lockRow id r m h).1

theorem untouched_of_failed (h : Host) (q : Request) {e : Error} (failed : h.failureOf q = some e) :
    h.Untouched (h.perform q) := by
  cases q with
  | connect endpoint k =>
    exact (allOrNothing_served (·.allOrNothing_connect endpoint k) h).untouched failed
  | createTable c a s m => exact (h.allOrNothing_createTable c a s m).untouched failed
  | openTable c a m => exact (h.allOrNothing_openTable c a m).untouched failed
  | readSchema id => exact (allOrNothing_looked _ h).untouched failed
  | moveCursor id i m => exact (allOrNothing_looked _ h).untouched failed
  | readRow id r => exact (allOrNothing_looked _ h).untouched failed
  | writeRow id target row => exact (h.allOrNothing_writeRow id target row).untouched failed
  | deleteRow id r => exact (h.allOrNothing_deleteRow id r).untouched failed
  | lock c m => exact (allOrNothing_served (·.allOrNothing_lock c m) h).untouched failed
  | lockRow id r m =>
    exact (allOrNothing_served (·.allOrNothing_lockRow id r m) h).untouched failed
  | disconnect | closeTable | unlock | isLocked => cases failed

/-- A call that fails, in whatever state and for whatever reason, leaves the server equal to what it was
and every table file with its bytes. On the disk there can be new directories and one temporary file. -/
theorem failed_call_changes_nothing (h : Host) (q : Request) (e : Error)
    (failed : h.failureOf q = some e) :
    (h.perform q).server = h.server ∧
      (∀ l : Location, l.IsTable → (h.perform q).disk.bytes? l = h.disk.bytes? l) ∧
      ∃ leftover, h.disk.Spares (h.perform q).disk leftover := by
  obtain ⟨hserver, leftover, hdisk⟩ := h.untouched_of_failed q failed
  exact ⟨hserver, hdisk.keeps.bytes, leftover, hdisk⟩

def fullDevice : List Event :=
  [.call (.connect "FAIRCOMS" ⟨"", ""⟩),
    .call (.createTable 1 ⟨⟨""⟩, "t"⟩ (.ofDecls [⟨"id", .uInteger, 4, 0, .none⟩] []) .normal),
    .call (.writeRow 3 none [.unsigned 7]),
    .device [(["t.dat.tmp"], .cut 5)]]

theorem failed_update_changes_nothing :
    let h := (start {} .empty).run fullDevice
    let h' := h.perform (.writeRow 3 (some 1) [.unsigned 8])
    h.failureOf (.writeRow 3 (some 1) [.unsigned 8]) = some .diskFailure ∧
      h'.server = h.server ∧ h'.disk.bytes? ["t.dat"] = h.disk.bytes? ["t.dat"] ∧
      h.disk.bytes? ["t.dat.tmp"] = none ∧
      (h'.disk.bytes? ["t.dat.tmp"]).map (·.length) = some 5 := by
  intro h h'
  have hfailed : h.failureOf (.writeRow 3 (some 1) [.unsigned 8]) = some .diskFailure := by
    decide +kernel
  obtain ⟨hserver, hbytes, -⟩ := failed_call_changes_nothing h _ _ hfailed
  exact ⟨hfailed, hserver, hbytes _ (by decide +kernel), by decide +kernel, by decide +kernel⟩

end Host
end Isam
