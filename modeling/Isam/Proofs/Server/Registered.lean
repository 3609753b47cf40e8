import Isam.Proofs.Server.Closing
import Isam.Proofs.Server.Effect
import Isam.Proofs.Server.Opening
namespace Isam

open FiniteMap

namespace Server

variable {s t : Server} {c : ConnectionId} {p : TablePath} {file : FileId} {i : Image}
  {mode : OpenMode}

structure Registered (s : Server) : Prop extends Consistent s where
  live : ∀ {id x}, get? s.handles id = some x → x.connection ∈ s.connections

theorem registered_start (config : EngineConfig) : (start config).Registered where
  distinct := List.nodup_nil
  below _ hn := nomatch hn
  handle hx := nomatch hx
  registration hr := nomatch hr
  file hf := nomatch hf
  live hx := nomatch hx

theorem Registered.register (h : s.Registered) (hc : c ∈ s.connections)
    (hr : (s.register c p file mode).2.Consistent) :
    (s.register c p file mode).2.Registered where
  toConsistent := hr
  live {id x} hx := by
    rw [get?_handles_register] at hx
    split at hx
    · cases hx
      exact hc
    · exact h.live hx

theorem Registered.registerNew (h : s.Registered) (hc : c ∈ s.connections)
    (free : get? s.registry p = none) : (s.registerNew c p i mode).2.Registered where
  toConsistent := h.toConsistent.registerNew free
  live {id x} hx := by
    rw [registerNew_eq, get?_handles_register] at hx
    split at hx
    · cases hx
      exact hc
    · exact h.live hx

theorem admits_found {r : Registration} (found : get? s.registry p = some r)
    (shared : r.exclusive = false) (alone : mode = .exclusive → r.handles = []) :
    s.Admits p r.file mode := by
  intro r' hr'
  rw [found] at hr'
  cases hr'
  exact ⟨rfl, shared, alone⟩

theorem Registered.disconnect (h : s.Registered) (c : ConnectionId) :
    (s.disconnect c).Registered where
  toConsistent := h.toConsistent.disconnect c
  live {id x} hx := by
    by_cases hc : c ∈ s.connections
    · have hl := h.toConsistent.left_disconnect hc
      obtain ⟨hx, hne⟩ := (hl.handles id x).1 hx
      rw [hl.connections]
      exact List.mem_filter.2 ⟨h.live hx, by simpa using hne⟩
    · rw [disconnect_of_not_mem hc] at hx ⊢
      exact h.live hx

theorem Registered.close (h : s.Registered) (id : HandleId) : (s.close id).Registered where
  toConsistent := h.toConsistent.close id
  live {k x} hx := by
    rw [get?_handles_close] at hx
    rw [close_connections]
    split at hx
    · cases hx
    · exact h.live hx

end Server

theorem Effect.registered {h h' : Host} {r : Request} (e : Effect h r h')
    (inv : h.server.Registered) : h'.server.Registered := by
  cases e with
  | unchanged => exact inv
  | connected => exact ⟨inv.with_connection, fun hx => List.mem_append_left _ (inv.live hx)⟩
  | disconnected c => exact inv.disconnect c
  | created m live valid known free saved => exact inv.registerNew live free
  | joined live found shared alone =>
    obtain ⟨i, hi⟩ := (inv.registration found).file
    exact inv.register live (inv.toConsistent.register hi (Server.admits_found found shared alone))
  | loaded live known free bytes decoded => exact inv.registerNew live free
  | closed id => exact inv.close id
  | wrote allowed => exact ⟨inv.setImage allowed.file, inv.live⟩
  | deleted allowed => exact ⟨inv.setImage allowed.file, inv.live⟩
  | locked | unlocked | rowLocked | rowUnlocked => exact ⟨inv.with_locks _, inv.live⟩

theorem Effect.opened_at {h h' : Host} {r : Request} {P : TablePath → Prop} (e : Effect h r h')
    (inv : h.server.Registered) (old : ∀ n f, get? h.server.files n = some f → P f.path)
    (new : ∀ a p, h'.disk.key? (h.server.path a) = some p → P p) {n : FileId} {f : OpenFile}
    (hf : get? h'.server.files n = some f) : P f.path := by
  cases e with
  | unchanged | connected | joined | locked | unlocked | rowLocked | rowUnlocked =>
    exact old n f hf
  | disconnected => exact old n f (inv.get?_files_of_disconnect hf)
  | closed id => exact old n f (Server.get?_files_of_close hf)
  | created _ _ _ known =>
    rcases Server.get?_files_of_registerNew hf with ⟨-, rfl⟩ | hf
    · exact new _ _ known
    · exact old n f hf
  | loaded _ known =>
    rcases Server.get?_files_of_registerNew hf with ⟨-, rfl⟩ | hf
    · exact new _ _ known
    · exact old n f hf
  | wrote allowed =>
    rcases Server.get?_files_of_setImage hf with ⟨-, rfl⟩ | hf
    · exact (old _ _ allowed.file :)
    · exact old n f hf
  | deleted allowed =>
    rcases Server.get?_files_of_setImage hf with ⟨-, rfl⟩ | hf
    · exact (old _ _ allowed.file :)
    · exact old n f hf

theorem Host.registered_next {h : Host} (inv : h.server.Registered) (e : Event) :
    (h.next e).server.Registered := by
  cases e with
  | call r => exact (h.perform_effect r).registered inv
  | device => exact inv
  | restart config => exact Server.registered_start config

theorem Host.openTable_registered {h h' : Host} {c : ConnectionId} {a : TableAddress} {m : OpenMode}
    {id : HandleId} (inv : h.server.Registered) (opened : h.openTable c a m = (.ok id, h')) :
    h'.server.Registered := by
  have e := Effect.of_openTable (h := h) c a m
  have hnext : h.perform (.openTable c a m) = h' := congrArg Prod.snd opened
  rw [hnext] at e
  exact e.registered inv

theorem Host.createTable_registered {h h' : Host} {c : ConnectionId} {a : TableAddress}
    {s : Schema} {m : CreateMode} {id : HandleId} (inv : h.server.Registered)
    (created : h.createTable c a s m = (.ok id, h')) : h'.server.Registered := by
  have e := Effect.of_createTable (h := h) c a s m
  have hnext : h.perform (.createTable c a s m) = h' := congrArg Prod.snd created
  rw [hnext] at e
  exact e.registered inv

theorem Host.registered_run (config : EngineConfig) (disk : Disk) (es : List Event) :
    ((start config disk).run es).server.Registered :=
  run_keeps (P := fun h => h.server.Registered) (fun _ e inv => registered_next inv e) es
    (Server.registered_start config)

theorem Host.run_registered {P : Host → Prop} (config : EngineConfig) (disk : Disk)
    (es : List Event) (new : P (start config disk))
    (step : ∀ h e, h.server.Registered → P h → P (next h e)) : P ((start config disk).run es) := by
  have hstep (h : Host) (e : Event) (inv : h.server.Registered ∧ P h) :
      (h.next e).server.Registered ∧ P (h.next e) :=
    ⟨registered_next inv.1 e, step h e inv.1 inv.2⟩
  have hrun := run_keeps (P := fun h => h.server.Registered ∧ P h) hstep es
    ⟨Server.registered_start config, new⟩
  exact hrun.2

theorem Host.server_run {P : Server → Prop} (config : EngineConfig) (disk : Disk) (es : List Event)
    (new : ∀ config, P (Server.start config))
    (call : ∀ {h h' : Host} {r : Request}, Effect h r h' → h.server.Registered → P h.server →
      P h'.server) : P ((start config disk).run es).server := by
  apply run_registered (P := fun h => P h.server) config disk es (new config)
  intro h e inv hp
  cases e with
  | call r => exact call (h.perform_effect r) inv hp
  | device => exact hp
  | restart config => exact new config

end Isam
