import Isam.Proofs.Server.Registered
namespace Isam

open FiniteMap

variable {h h' : Host} {r : Request} {l : Location} {e : Event}

/-- Engines whose data directory has a name. Where it has none, a table file can be known by its bare
name, and by its whole path as well. -/
def EngineConfig.OnDirectory (c : EngineConfig) : Prop := c.dataDir.text ≠ ""

def Event.OnDirectory : Event → Prop
  | .restart config => config.OnDirectory
  | .call _ | .device _ => True

theorem Effect.config (e : Effect h r h') (inv : h.server.Registered) :
    h'.server.config = h.server.config := by
  cases e with
  | disconnected c =>
    by_cases hc : c ∈ h.server.connections
    · exact (inv.toConsistent.left_disconnect hc).config
    · rw [Server.disconnect_of_not_mem hc]
  | closed id => exact Server.close_config h.server id
  | _ => rfl

namespace Host

def IsOpen (h : Host) (l : Location) : Prop :=
  ∃ n f, get? h.server.files n = some f ∧ f.location = l

/-- All that is open at a place is open by one path, and so it is one file. -/
def OnePath (h : Host) (l : Location) : Prop :=
  ∀ n m f g, get? h.server.files n = some f → get? h.server.files m = some g →
    f.location = l → g.location = l → f.path = g.path

theorem OnePath.image_eq (single : h.OnePath l) (inv : h.server.Consistent) {n m : FileId}
    {f g : OpenFile} (hf : get? h.server.files n = some f) (hg : get? h.server.files m = some g)
    (hfl : f.location = l) (hgl : g.location = l) : f = g := by
  have hn := inv.file_eq hf hg (single n m f g hf hg hfl hgl)
  rw [hn, hg] at hf
  exact (Option.some.inj hf).symm

structure Rooted (h : Host) : Prop where
  directory : h.server.config.OnDirectory
  absolute : ∀ n f, get? h.server.files n = some f → f.path.absolute = true

theorem rooted_start {config : EngineConfig} (directory : config.OnDirectory) (disk : Disk) :
    (start config disk).Rooted := ⟨directory, nofun⟩

theorem Rooted.path_absolute {d : Disk} {a : TableAddress} {p : TablePath} (rooted : h.Rooted)
    (known : d.key? (h.server.path a) = some p) : p.absolute = true := by
  rw [(Disk.key?_eq_some.1 known).2]
  have hbare : (h.server.path a).isBare = false :=
    Path.isBare_join rooted.directory a.tableEnding_file
  rw [hbare]
  rfl

theorem Rooted.path_eq {n : FileId} {f : OpenFile} {p : TablePath} (rooted : h.Rooted)
    (hf : get? h.server.files n = some f) (hl : f.location = p.place)
    (hp : p.absolute = true) : f.path = p := by
  have habsolute := rooted.absolute n f hf
  obtain ⟨⟨_, _⟩, _⟩ := f
  obtain ⟨_, _⟩ := p
  cases habsolute
  cases hp
  cases hl
  rfl

theorem Rooted.onePath (rooted : h.Rooted) (l : Location) : h.OnePath l :=
  fun _ m _ g hf hg hfl hgl => rooted.path_eq hf (hfl.trans hgl.symm) (rooted.absolute m g hg)

theorem Rooted.not_isOpen {p : TablePath} (rooted : h.Rooted) (inv : h.server.Consistent)
    (hp : p.absolute = true) (free : get? h.server.registry p = none) : ¬ h.IsOpen p.place := by
  rintro ⟨n, f, hf, hl⟩
  obtain ⟨r, hr, -⟩ := inv.file hf
  rw [rooted.path_eq hf hl hp, free] at hr
  cases hr

theorem Rooted.next (rooted : h.Rooted) (inv : h.server.Registered) (he : e.OnDirectory) :
    (h.next e).Rooted := by
  cases e with
  | call r =>
    have effect := h.perform_effect r
    refine ⟨?_, fun n f hf => ?_⟩
    · rw [next, effect.config inv]
      exact rooted.directory
    · exact effect.opened_at (P := fun p => p.absolute = true) inv rooted.absolute
        (fun _ _ known => rooted.path_absolute known) hf
  | device => exact ⟨rooted.directory, rooted.absolute⟩
  | restart config => exact rooted_start he h.disk

theorem Rooted.throughout (rooted : h.Rooted) (inv : h.server.Registered) {es : List Event}
    (hes : ∀ e ∈ es, e.OnDirectory) : h.Throughout Rooted es := by
  induction es generalizing h with
  | nil => exact rooted
  | cons e es ih =>
    obtain ⟨he, hes⟩ := List.forall_mem_cons.1 hes
    exact ⟨rooted, ih (rooted.next inv he) (registered_next inv e) hes⟩

theorem rooted_throughout {config : EngineConfig} (directory : config.OnDirectory) (disk : Disk)
    {es : List Event} (hes : ∀ e ∈ es, e.OnDirectory) :
    (start config disk).Throughout Rooted es :=
  (rooted_start directory disk).throughout (Server.registered_start config) hes

-- without a directory, the names t and ./t are two paths to one file
example : (((start { dataDir := ⟨""⟩ } .empty).run [.call (.connect "FAIRCOMS" ⟨"", ""⟩),
    .call (.createTable 1 ⟨⟨""⟩, "t"⟩ (.ofDecls [⟨"id", .uInteger, 4, 0, .none⟩] []) .normal),
    .call (.openTable 1 ⟨⟨"."⟩, "t"⟩ .corrupt)]).server.files.map (·.2.path)) =
      [⟨false, ["t.dat"]⟩, ⟨true, ["t.dat"]⟩] := by decide +kernel

end Host
end Isam
