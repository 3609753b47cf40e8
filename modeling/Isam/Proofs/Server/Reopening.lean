import Isam.Proofs.Server.Places
namespace Isam

open FiniteMap

variable {h : Host} {l : Location} {i : Image} {known : Option Image}

namespace Host

def openImage? (h : Host) (l : Location) : Option Image :=
  (h.server.files.find? (·.2.location = l)).map (·.2.image)

/-- The image that is open at a place after a run, or else the one that was open there last. -/
def lastImage (h : Host) (l : Location) (known : Option Image) : List Event → Option Image
  | [] => (h.openImage? l).or known
  | e :: es => (h.next e).lastImage l ((h.openImage? l).or known) es

theorem openImage?_eq_some (inv : h.server.Registered) (hi : h.openImage? l = some i) :
    ∃ n f, get? h.server.files n = some f ∧ f.location = l ∧ f.image = i := by
  obtain ⟨⟨n, f⟩, hfind, himage⟩ := Option.map_eq_some_iff.1 hi
  have hf := (mem_iff_get? inv.nodup_files).1 (List.mem_of_find?_eq_some hfind)
  exact ⟨n, f, hf, of_decide_eq_true (List.find?_some hfind :), himage⟩

theorem not_isOpen_of_openImage? (hnone : h.openImage? l = none) : ¬ h.IsOpen l := by
  rintro ⟨n, f, hf, hl⟩
  have hfind := Option.map_eq_none_iff.1 hnone
  exact List.find?_eq_none.1 hfind _ (mem_of_get? hf) (decide_eq_true hl)

theorem Contains.tells {content : Option Image} (H : h.Contains l content)
    (inv : h.server.Registered) (hopen : h.IsOpen l ∨ content = known) :
    (h.openImage? l).or known = content := by
  cases ho : h.openImage? l with
  | some j =>
    obtain ⟨k, f, hf, hl, himage⟩ := openImage?_eq_some inv ho
    rw [Option.some_or, H.image hf hl, himage]
  | none => exact (hopen.resolve_left (not_isOpen_of_openImage? ho)).symm

theorem Contains.run_last (H : h.Contains l ((h.openImage? l).or known))
    (inv : h.server.Registered) (hl : l.IsTable) {es : List Event}
    (single : h.Throughout (·.OnePath l) es) : (h.run es).Contains l (h.lastImage l known es) := by
  induction es generalizing h known with
  | nil => exact H
  | cons e es ih =>
    obtain ⟨content, H', hopen⟩ := H.next inv hl e single.2.first
    -- the content is the open image, or the known one where nothing is open
    have inv' := registered_next inv e
    rw [← H'.tells inv' hopen] at H'
    exact ih H' inv' single.2

theorem load_of_bytes? {a : TableAddress} {m : OpenMode} {k : TablePath} {bs : List UInt8}
    (hkey : h.disk.key? (h.server.path a) = some k) (hbs : h.disk.bytes? k.place = some bs) :
    h.load a m = TableFile.decode bs (h.server.config.verifyChecksums && m != .corrupt) := by
  unfold load
  split
  · rename_i hnone
    rw [hkey] at hnone
    cases hnone
  · rename_i k' hk
    rw [hkey] at hk
    cases hk
    unfold Disk.bytes? at hbs
    split at hbs
    · rename_i hnode
      cases hbs
      rw [hnode]
    · cases hbs

/-- Whoever opens a table by whatever address and in whatever mode gets this image. -/
def Reopens (h : Host) (l : Location) (i : Image) : Prop :=
  ∀ c a m, c ∈ h.server.connections → h.disk.place? (h.server.path a) = some l →
    ∃ id h' x f, h.openTable c a m = (.ok id, h') ∧ h'.server.opened id = .ok (x, f) ∧
      f.location = l ∧ f.image = i

theorem openTable_eq_ok {c : ConnectionId} {a : TableAddress} {m : OpenMode} {k : TablePath}
    {bs : List UInt8} (hc : c ∈ h.server.connections)
    (hkey : h.disk.key? (h.server.path a) = some k) (closed : get? h.server.registry k = none)
    (hbs : h.disk.bytes? k.place = some bs)
    (hdecode : ∀ verify, TableFile.decode bs verify = .ok i) :
    h.openTable c a m = (.ok (h.server.registerNew c k i m).1,
      { h with server := (h.server.registerNew c k i m).2 }) := by
  have hconnection := Server.checkConnection_eq_ok.2 hc
  have hresolve := Disk.resolve_of_key? hkey
  have hload : h.load a m = .ok i := by
    rw [load_of_bytes? hkey hbs]
    exact hdecode _
  simp only [openTable, hconnection, hresolve, closed, hload]

theorem not_registered_of_not_isOpen (inv : h.server.Consistent) {k : TablePath}
    (closed : ¬ h.IsOpen k.place) : get? h.server.registry k = none := by
  cases hr : get? h.server.registry k with
  | none => rfl
  | some r =>
    obtain ⟨i, hi⟩ := (inv.registration hr).file
    exact absurd ⟨r.file, ⟨k, i⟩, hi, rfl⟩ closed

theorem Holds.reopens (H : h.Holds l i) (made : i.Made) (inv : h.server.Consistent)
    (closed : ¬ h.IsOpen l) : h.Reopens l i := by
  intro c a m hc hplace
  obtain ⟨k, hkey, rfl⟩ : ∃ k, h.disk.key? (h.server.path a) = some k ∧ k.place = l :=
    ⟨⟨!(h.server.path a).isBare, l⟩, Disk.key?_eq_some.2 ⟨hplace, rfl⟩, rfl⟩
  have hopen := openTable_eq_ok (m := m) hc hkey (not_registered_of_not_isOpen inv closed) H.bytes
    (made.decode_encode H.size)
  refine ⟨_, _, ⟨c, h.server.nextId, m⟩, ⟨k, i⟩, hopen, ?_, rfl, rfl⟩
  exact Server.opened_eq_ok.2 ⟨get?_set_self _ _ _, get?_set_self _ _ _⟩

def handlesAt (h : Host) (l : Location) : List HandleId :=
  (h.server.handles.filter fun p => (get? h.server.files p.2.file).any (·.location = l)).map (·.1)

def closing (h : Host) (l : Location) : List Event :=
  (h.handlesAt l).map fun id => .call (.closeTable id)

theorem run_closes (h : Host) (ids : List HandleId) :
    h.run (ids.map fun id => .call (.closeTable id)) =
      { h with server := ids.foldl Server.close h.server } := by
  induction ids generalizing h with
  | nil => rfl
  | cons id ids ih => exact ih _

theorem run_closing (inv : h.server.Registered) (l : Location) :
    h.Leaves (h.run (h.closing l)) l ∧ (h.run (h.closing l)).disk = h.disk ∧
      ¬ (h.run (h.closing l)).IsOpen l := by
  rw [closing, run_closes]
  have hreduced := Server.reduced_foldl_close (h.handlesAt l) h.server
  refine ⟨⟨rfl, fun n f hf _ => hreduced.files n f hf⟩, rfl, ?_⟩
  -- a file that is left has a handle, and that handle was closed
  rintro ⟨n, f, hf, hl⟩
  have inv' := inv.toConsistent.foldl_close (h.handlesAt l)
  obtain ⟨r, hr, hn⟩ := inv'.file hf
  have d := inv'.registration hr
  obtain ⟨id, hid⟩ := List.exists_mem_of_ne_nil _ d.occupied
  obtain ⟨x, hx, hfile⟩ := d.handles id hid
  rw [hreduced.handles] at hx
  split at hx
  · cases hx
  · rename_i hmem
    apply hmem
    refine List.mem_map.2 ⟨(id, x), List.mem_filter.2 ⟨mem_of_get? hx, ?_⟩, rfl⟩
    simp only
    rw [hfile, hn, hreduced.files n f hf]
    exact decide_eq_true hl

theorem connect_new (config : EngineConfig) (disk : Disk) (endpoint : String) (k : Credentials) :
    ((start config disk).perform (.connect endpoint k)).disk = disk ∧
      ((start config disk).perform (.connect endpoint k)).server.files = [] := by
  simp only [perform, engine, served]
  rcases (Server.start config).connect_cases endpoint k with ⟨e, hrefused⟩ | hconnected
  · exact ⟨rfl, by rw [start, hrefused]; rfl⟩
  · exact ⟨rfl, by rw [start, hconnected]; rfl⟩

/-- On a disk without files, memory and disk agree in every state that any calls lead to, at every
place that is never open by two paths at a time, as no place is while the engines have a data
directory: the bytes of an open table are the encoding of its image, and those of any table the
encoding of the image that was last open there. So a table of which every handle is closed is opened
again as it was, and also by a new engine. -/
theorem memory_and_disk_agree (config : EngineConfig) (disk : Disk)
    (empty : ∀ l, disk.bytes? l = none) (es : List Event) :
    (config.OnDirectory → (∀ e ∈ es, e.OnDirectory) →
      ∀ l, (start config disk).Throughout (·.OnePath l) es) ∧
    ∀ l : Location, (start config disk).Throughout (·.OnePath l) es →
      let h := (start config disk).run es
      let last := (start config disk).lastImage l none es
      (∀ id x f, h.server.opened id = .ok (x, f) → f.location = l →
        h.disk.bytes? l = some (TableFile.encode f.image)) ∧
      (l.IsTable → h.disk.bytes? l = last.map TableFile.encode) ∧
      ∀ i, last = some i →
        (h.run (h.closing l)).Reopens l i ∧
        ∀ config' endpoint k, ((start config' h.disk).perform (.connect endpoint k)).Reopens l i := by
  refine ⟨fun directory hes l => (rooted_throughout directory disk hes).mono fun _ r => r.onePath l,
    fun l single => ?_⟩
  intro h last
  have inv : h.server.Registered := registered_run config disk es
  have contains (hl : l.IsTable) : h.Contains l last :=
    (contains_start config (empty l)).run_last (Server.registered_start config) hl single
  refine ⟨?_, fun hl => (contains hl).bytes, ?_⟩
  · rintro id x f ho rfl
    have hf := (Server.opened_eq_ok.1 ho).2
    have H := contains (onTables_run config disk es _ f hf)
    rw [H.bytes, H.image hf rfl]
    rfl
  · intro i hlast
    have holds (hl : l.IsTable) : h.Holds l i ∧ i.Made := by
      have H := contains hl
      rw [hlast] at H
      cases H with
      | table holds made => exact ⟨holds, made⟩
    constructor
    · intro c a m hc hplace
      obtain ⟨hholds, made⟩ := holds (Disk.isTable_of_place? rfl hplace)
      obtain ⟨hleaves, -, hclosed⟩ := run_closing inv l
      have inv' := run_keeps (P := fun h => h.server.Registered)
        (fun _ e inv => registered_next inv e) (h.closing l) inv
      exact (hholds.leaves hleaves).reopens made inv'.toConsistent hclosed c a m hc hplace
    · intro config' endpoint k c a m hc hplace
      obtain ⟨hholds, made⟩ := holds (Disk.isTable_of_place? rfl hplace)
      obtain ⟨hdisk, hfiles⟩ := connect_new config' h.disk endpoint k
      have inv' := registered_run config' h.disk [.call (.connect endpoint k)]
      have hleaves : h.Leaves ((start config' h.disk).perform (.connect endpoint k)) l :=
        ⟨by rw [hdisk], fun n f hf _ => by rw [hfiles] at hf; cases hf⟩
      have hclosed : ¬ ((start config' h.disk).perform (.connect endpoint k)).IsOpen l := by
        rintro ⟨_, _, hf, -⟩
        rw [hfiles] at hf
        cases hf
      exact (hholds.leaves hleaves).reopens made inv'.toConsistent hclosed c a m hc hplace

def oneRow : List Event :=
  [.call (.connect "FAIRCOMS" ⟨"", ""⟩),
    .call (.createTable 1 ⟨⟨""⟩, "t"⟩ (.ofDecls [⟨"id", .uInteger, 4, 0, .none⟩] []) .normal),
    .call (.writeRow 3 none [.unsigned 7])]

theorem oneRow_reopens : ∃ i : Image, i.rows.entries = [(1, [.unsigned 7])] ∧
    ∀ config' endpoint k,
      ((start config' ((start {} .empty).run oneRow).disk).perform (.connect endpoint k)).Reopens
        ["t.dat"] i := by
  have hrows : ((start {} .empty).lastImage ["t.dat"] none oneRow).map (·.rows.entries) =
      some [(1, [.unsigned 7])] := by decide +kernel
  obtain ⟨i, hlast, hi⟩ := Option.map_eq_some_iff.1 hrows
  have hempty : ∀ l, Disk.empty.bytes? l = none := fun l => by cases l <;> rfl
  have single := (memory_and_disk_agree {} .empty hempty oneRow).1 (fun h => nomatch h)
    (by simp [oneRow, Event.OnDirectory]) ["t.dat"]
  exact ⟨i, hi, (((memory_and_disk_agree {} .empty hempty oneRow).2 _ single).2.2 i hlast).2⟩

end Host
end Isam
