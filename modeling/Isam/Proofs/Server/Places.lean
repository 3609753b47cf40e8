import Isam.Proofs.Server.Paths
import Isam.Proofs.Storage.Made
namespace Isam

open FiniteMap

variable {h h' : Host} {r : Request} {l : Location} {i : Image} {bs : List UInt8}

namespace Host

structure Holds (h : Host) (l : Location) (i : Image) : Prop where
  bytes : h.disk.bytes? l = some (TableFile.encode i)
  size : (TableFile.encode i).length < Disk.sizeLimit
  image : ∀ n f, get? h.server.files n = some f → f.location = l → f.image = i

structure Vacant (h : Host) (l : Location) : Prop where
  bytes : h.disk.bytes? l = none
  closed : ¬ h.IsOpen l

structure Leaves (h h' : Host) (l : Location) : Prop where
  bytes : h'.disk.bytes? l = h.disk.bytes? l
  files : ∀ n f, get? h'.server.files n = some f → f.location = l →
    get? h.server.files n = some f

structure Loads (h h' : Host) (l : Location) (bs : List UInt8) (i : Image) : Prop where
  before : h.disk.bytes? l = some bs
  bytes : h'.disk.bytes? l = some bs
  opened : ∃ n f, get? h'.server.files n = some f ∧ f.location = l ∧ f.image = i
  image : ∀ n f, get? h'.server.files n = some f → f.location = l →
    f.image = i ∨ get? h.server.files n = some f

structure Saves (h h' : Host) (l : Location) (j : Image) : Prop where
  bytes : h'.disk.bytes? l = some (TableFile.encode j)
  size : (TableFile.encode j).length < Disk.sizeLimit
  opened : ∃ n f, get? h'.server.files n = some f ∧ f.location = l ∧ f.image = j
  image : ∀ n f, get? h'.server.files n = some f → f.location = l →
    f.image = j ∨ get? h.server.files n = some f

/-- A table is created by a path over a file that is there. -/
def Recreates (h : Host) (q : Request) (k : TablePath) : Prop :=
  ∃ c a s id, q = .createTable c a s .overwrite ∧
    (h.createTable c a s .overwrite).1 = .ok id ∧
    (h.perform q).disk.key? (h.server.path a) = some k ∧ h.disk.bytes? k.place ≠ none

def Preserves (l : Location) (h : Host) (e : Event) : Prop :=
  ∀ q k, e = .call q → k.place = l → ¬ h.Recreates q k

def Succeeds (h : Host) (r : Request) (l : Location) (j : Image) : Prop :=
  (∃ n f x, get? h.server.files n = some f ∧ f.location = l ∧ f.image.Advances x j) ∨
  ((h.disk.bytes? l = none ∨ ¬ h.Preserves l (.call r)) ∧
    ∃ s : Schema, s.numbered.validate = .ok () ∧ j = .ofSchema s.numbered)

theorem leaves_of_files (hbytes : h'.disk.bytes? l = h.disk.bytes? l)
    (hfiles : h'.server.files = h.server.files) : h.Leaves h' l :=
  ⟨hbytes, fun _ _ hf _ => hfiles ▸ hf⟩

theorem leaves_restart (config : EngineConfig) : h.Leaves (h.next (.restart config)) l :=
  ⟨rfl, fun _ _ hf _ => nomatch hf⟩

theorem Holds.leaves (H : h.Holds l i) (k : h.Leaves h' l) : h'.Holds l i :=
  ⟨k.bytes.trans H.bytes, H.size, fun n f hf hl => H.image n f (k.files n f hf hl) hl⟩

theorem Vacant.leaves (H : h.Vacant l) (k : h.Leaves h' l) : h'.Vacant l :=
  ⟨k.bytes.trans H.bytes, fun ⟨n, f, hf, hl⟩ => H.closed ⟨n, f, k.files n f hf hl, hl⟩⟩

theorem OnePath.image (single : h.OnePath l) (inv : h.server.Consistent)
    (opened : ∃ n f, get? h.server.files n = some f ∧ f.location = l ∧ f.image = i) (n : FileId)
    (f : OpenFile) (hf : get? h.server.files n = some f) (hl : f.location = l) : f.image = i := by
  obtain ⟨m, g, hg, hgl, himage⟩ := opened
  rw [single.image_eq inv hf hg hl hgl, himage]

theorem Saves.holds (saves : h.Saves h' l i) (single : h'.OnePath l) (inv : h'.server.Consistent) :
    h'.Holds l i := ⟨saves.bytes, saves.size, single.image inv saves.opened⟩

theorem Saves.isOpen (saves : h.Saves h' l i) : h'.IsOpen l := by
  obtain ⟨n, f, hf, hl, -⟩ := saves.opened
  exact ⟨n, f, hf, hl⟩

variable {c : ConnectionId} {p : TablePath} {mode : OpenMode} {f : OpenFile} {file : FileId}
  {d : Disk}

theorem leaves_registerNew (hp : p.place ≠ l) (hbytes : d.bytes? l = h.disk.bytes? l) :
    h.Leaves ⟨(h.server.registerNew c p i mode).2, d⟩ l := by
  refine ⟨hbytes, fun k g hg hl => ?_⟩
  rcases Server.get?_files_of_registerNew hg with ⟨-, rfl⟩ | hg
  · exact absurd hl hp
  · exact hg

theorem leaves_setImage (hf : f.location ≠ l) (hbytes : d.bytes? l = h.disk.bytes? l) :
    h.Leaves ⟨h.server.setImage file f i, d⟩ l := by
  refine ⟨hbytes, fun k g hg hl => ?_⟩
  rcases Server.get?_files_of_setImage hg with ⟨-, rfl⟩ | hg
  · exact absurd hl hf
  · exact hg

theorem saves_registerNew (saved : h.disk.Replaced p.place (TableFile.encode i) d) :
    h.Saves ⟨(h.server.registerNew c p i mode).2, d⟩ p.place i := by
  refine ⟨saved.bytes, saved.size, ⟨h.server.nextId, ⟨p, i⟩, get?_set_self _ _ _, rfl, rfl⟩, ?_⟩
  intro n f hf _
  rcases Server.get?_files_of_registerNew hf with ⟨-, rfl⟩ | hf
  · exact .inl rfl
  · exact .inr hf

theorem saves_setImage (saved : h.disk.Replaced f.location (TableFile.encode i) d) :
    h.Saves ⟨h.server.setImage file f i, d⟩ f.location i := by
  refine ⟨saved.bytes, saved.size, ⟨file, _, get?_set_self _ _ _, rfl, rfl⟩, ?_⟩
  intro n g hg _
  rcases Server.get?_files_of_setImage hg with ⟨-, rfl⟩ | hg
  · exact .inl rfl
  · exact .inr hg

theorem createTable_elsewhere {c : ConnectionId} {a : TableAddress} {s : Schema} {m : CreateMode}
    {id : HandleId} {g : Host} {k : TablePath}
    (preserves : h.Preserves l (.call (.createTable c a s m)))
    (hbs : h.disk.bytes? l = some bs) (hmade : h.createTable c a s m = (.ok id, g))
    (known : g.disk.key? (h.server.path a) = some k)
    (fresh : m ≠ .overwrite → h.disk.node? k.place = none) : k.place ≠ l := by
  rintro rfl
  have hmode : m = .overwrite := by
    by_contra hm
    rw [Disk.bytes?, fresh hm] at hbs
    cases hbs
  subst hmode
  have hperform : h.perform (.createTable c a s .overwrite) = g := congrArg Prod.snd hmade
  refine preserves _ k rfl rfl ⟨c, a, s, id, rfl, by rw [hmade], hperform ▸ known, ?_⟩
  rw [hbs]
  exact Option.some_ne_none bs

theorem OnePath.not_isOpen (single : OnePath ⟨(h.server.registerNew c p i mode).2, d⟩ p.place)
    (inv : h.server.Consistent) (free : get? h.server.registry p = none) : ¬ h.IsOpen p.place := by
  rintro ⟨n, f, hf, hl⟩
  have hf' : get? (h.server.registerNew c p i mode).2.files n = some f := by
    rw [Server.get?_files_registerNew, if_neg (Nat.ne_of_gt (inv.file_lt hf))]
    exact hf
  have hpath : f.path = p := single n _ f _ hf' (get?_set_self _ _ _) hl rfl
  obtain ⟨r, hr, -⟩ := inv.file hf
  rw [hpath, free] at hr
  cases hr

end Host

open Host

def Server.OnTables (s : Server) : Prop :=
  ∀ n f, get? s.files n = some f → f.location.IsTable

theorem Host.onTables_run (config : EngineConfig) (disk : Disk) (es : List Event) :
    ((start config disk).run es).server.OnTables :=
  server_run config disk es (fun _ _ _ hf => nomatch hf) fun e inv old _ _ hf =>
    e.opened_at (P := fun p => p.place.IsTable) inv old (fun _ _ => Disk.isTable_of_key? rfl) hf

theorem Server.WriteAllowed.advances {s : Server} {id : HandleId} {target : Option RowId} {row : Row}
    {x : Handle} {f : OpenFile} (allowed : s.WriteAllowed id target row x f) :
    ∃ new, f.image.Advances new (f.image.store target row).2 := by
  have unique := allowed.unique
  cases target with
  | none => exact ⟨_, .inserted allowed.conforms unique (allowed.room rfl)⟩
  | some r => exact ⟨_, .updated (allowed.target_stored r rfl) allowed.conforms unique⟩

theorem Effect.at_place (e : Effect h r h') (inv : h.server.Registered) (hl : l.IsTable) :
    h.Leaves h' l ∨
    (∃ bs verify i, TableFile.decode bs verify = .ok i ∧ h.Loads h' l bs i) ∨
    ∃ j, h.Saves h' l j ∧ h.Succeeds r l j := by
  cases e with
  | unchanged r kept => exact .inl (leaves_of_files (kept.bytes l hl) rfl)
  | connected | joined | locked | unlocked | rowLocked | rowUnlocked =>
    exact .inl (leaves_of_files rfl rfl)
  | disconnected => exact .inl ⟨rfl, fun n f hf _ => inv.get?_files_of_disconnect hf⟩
  | closed id => exact .inl ⟨rfl, fun n f hf _ => Server.get?_files_of_close hf⟩
  | @created c a s p d mode live valid known free saved answer fresh =>
    by_cases hp : p.place = l
    · refine .inr (.inr ⟨_, hp ▸ saves_registerNew saved, .inr ⟨?_, s, valid, rfl⟩⟩)
      cases hbs : h.disk.bytes? l with
      | none => exact .inl rfl
      | some bs =>
        exact .inr fun preserves => createTable_elsewhere preserves hbs answer known fresh hp
    · exact .inl (leaves_registerNew hp (saved.others l hl (Ne.symm hp)))
  | @loaded c a mode p i bs verify live known free bytes decoded =>
    by_cases hp : p.place = l
    · subst hp
      refine .inr (.inl ⟨bs, verify, i, decoded, bytes, bytes, ?_, ?_⟩)
      · exact ⟨h.server.nextId, ⟨p, i⟩, get?_set_self _ _ _, rfl, rfl⟩
      · intro n f hf _
        rcases Server.get?_files_of_registerNew hf with ⟨-, rfl⟩ | hf
        · exact .inl rfl
        · exact .inr hf
    · exact .inl (leaves_registerNew hp rfl)
  | @wrote id target row x f d allowed answer saved =>
    by_cases hf : f.location = l
    · subst hf
      obtain ⟨new, advances⟩ := allowed.advances
      exact .inr (.inr ⟨_, saves_setImage saved,
        .inl ⟨x.file, f, new, allowed.file, rfl, advances⟩⟩)
    · exact .inl (leaves_setImage hf (saved.others l hl (Ne.symm hf)))
  | @deleted id r x f row d allowed answer saved =>
    by_cases hf : f.location = l
    · subst hf
      exact .inr (.inr ⟨_, saves_setImage saved,
        .inl ⟨x.file, f, none, allowed.file, rfl, .removed r⟩⟩)
    · exact .inl (leaves_setImage hf (saved.others l hl (Ne.symm hf)))

namespace Host

/-- The bytes at a place and the images that are open there may differ, where a file is open by two
paths. All of them are images that calls made. -/
structure MadeAt (h : Host) (l : Location) : Prop where
  bytes : ∀ bs, h.disk.bytes? l = some bs →
    ∃ i : Image, i.Made ∧ bs = TableFile.encode i ∧ bs.length < Disk.sizeLimit
  image : ∀ n f, get? h.server.files n = some f → f.location = l → f.image.Made

theorem madeAt_start (config : EngineConfig) {disk : Disk} (hdisk : disk.bytes? l = none) :
    (start config disk).MadeAt l := by
  refine ⟨fun bs hbs => ?_, fun _ _ hf => nomatch hf⟩
  rw [show (start config disk).disk.bytes? l = none from hdisk] at hbs
  cases hbs

theorem MadeAt.leaves (made : h.MadeAt l) (k : h.Leaves h' l) : h'.MadeAt l :=
  ⟨fun bs hbs => made.bytes bs (k.bytes ▸ hbs), fun n f hf hl => made.image n f (k.files n f hf hl) hl⟩

theorem MadeAt.saves (old : ∀ n f, get? h.server.files n = some f → f.location = l → f.image.Made)
    (saves : h.Saves h' l i) (made : i.Made) : h'.MadeAt l := by
  constructor
  · intro bs hbs
    rw [saves.bytes] at hbs
    cases hbs
    exact ⟨i, made, rfl, saves.size⟩
  · intro n f hf hl
    rcases saves.image n f hf hl with rfl | hold
    · exact made
    · exact old n f hold hl

theorem MadeAt.next (H : h.MadeAt l) (inv : h.server.Registered) (hl : l.IsTable) (e : Event) :
    (h.next e).MadeAt l := by
  cases e with
  | device => exact H.leaves (leaves_of_files rfl rfl)
  | restart config => exact H.leaves (leaves_restart config)
  | call r =>
    rcases (h.perform_effect r).at_place inv hl with hleaves | ⟨bs, verify, i, hi, loads⟩ |
      ⟨j, saves, hsource⟩
    · exact H.leaves hleaves
    · obtain ⟨j, made, rfl, hsize⟩ := H.bytes bs loads.before
      rw [made.decode_encode hsize] at hi
      cases hi
      constructor
      · intro bs hbs
        rw [show (h.next (.call r)).disk.bytes? l = _ from loads.bytes] at hbs
        cases hbs
        exact ⟨i, made, rfl, hsize⟩
      · intro n f hf hfl
        rcases loads.image n f hf hfl with rfl | hold
        · exact made
        · exact H.image n f hold hfl
    · refine .saves H.image saves ?_
      rcases hsource with ⟨k, f, x, hf, hloc, advances⟩ | ⟨-, s, valid, rfl⟩
      · exact advances.made (H.image k f hf hloc)
      · exact .created valid

theorem MadeAt.run (H : h.MadeAt l) (inv : h.server.Registered) (hl : l.IsTable) (es : List Event) :
    (h.run es).MadeAt l := by
  induction es generalizing h with
  | nil => exact H
  | cons e es ih => exact ih (H.next inv hl e) (registered_next inv e)

theorem stored_next (inv : h.server.Registered) (hl : l.IsTable)
    (stored : (h.disk.bytes? l).isSome = true) (e : Event) :
    ((h.next e).disk.bytes? l).isSome = true := by
  cases e with
  | device | restart => exact stored
  | call r =>
    rw [next]
    rcases (h.perform_effect r).at_place inv hl with hleaves | ⟨bs, verify, i, -, loads⟩ |
      ⟨j, saves, -⟩
    · rwa [hleaves.bytes]
    · rw [loads.bytes, Option.isSome_some]
    · rw [saves.bytes, Option.isSome_some]

theorem stored_run (inv : h.server.Registered) (hl : l.IsTable)
    (stored : (h.disk.bytes? l).isSome = true) (es : List Event) :
    ((h.run es).disk.bytes? l).isSome = true := by
  induction es generalizing h with
  | nil => exact stored
  | cons e es ih => exact ih (registered_next inv e) (stored_next inv hl stored e)

theorem made_of_open (config : EngineConfig) {disk : Disk} (empty : ∀ l, disk.bytes? l = none)
    (es : List Event) {k : FileId} {f : OpenFile}
    (hf : get? ((start config disk).run es).server.files k = some f) : f.image.Made := by
  have H := (madeAt_start config (empty f.location)).run (Server.registered_start config)
    (onTables_run config disk es k f hf) es
  exact H.image k f hf rfl

/-! One image at a place, where files are open by one path. -/

theorem Holds.next (H : h.Holds l i) (made : i.Made) (inv : h.server.Registered) (hl : l.IsTable)
    (e : Event) (single : (h.next e).OnePath l) :
    ∃ j, (h.next e).Holds l j ∧ j.Made ∧ ((h.next e).IsOpen l ∨ j = i) := by
  have inv' := (registered_next inv e).toConsistent
  cases e with
  | device => exact ⟨i, H.leaves (leaves_of_files rfl rfl), made, .inr rfl⟩
  | restart config => exact ⟨i, H.leaves (leaves_restart config), made, .inr rfl⟩
  | call r =>
    rcases (h.perform_effect r).at_place inv hl with hleaves | ⟨bs, verify, j, hj, loads⟩ |
      ⟨j, saves, hsource⟩
    · exact ⟨i, H.leaves hleaves, made, .inr rfl⟩
    · -- the bytes that are loaded are the ones that the image was written as
      have hbs : bs = TableFile.encode i := by
        have hbytes := H.bytes
        rw [loads.before] at hbytes
        exact Option.some.inj hbytes
      rw [hbs, made.decode_encode H.size] at hj
      cases hj
      exact ⟨i, ⟨hbs ▸ loads.bytes, H.size, single.image inv' loads.opened⟩, made, .inr rfl⟩
    · have holds := saves.holds single inv'
      rcases hsource with ⟨k, f, x, hf, hloc, advances⟩ | ⟨-, s, valid, rfl⟩
      · rw [H.image k f hf hloc] at advances
        exact ⟨j, holds, advances.made made, .inl saves.isOpen⟩
      · exact ⟨_, holds, .created valid, .inl saves.isOpen⟩

theorem Vacant.next (H : h.Vacant l) (inv : h.server.Registered) (hl : l.IsTable) (e : Event)
    (single : (h.next e).OnePath l) :
    (h.next e).Vacant l ∨ ∃ j, (h.next e).Holds l j ∧ j.Made ∧ (h.next e).IsOpen l := by
  have inv' := (registered_next inv e).toConsistent
  cases e with
  | device => exact .inl (H.leaves (leaves_of_files rfl rfl))
  | restart config => exact .inl (H.leaves (leaves_restart config))
  | call r =>
    rcases (h.perform_effect r).at_place inv hl with hleaves | ⟨bs, verify, j, hj, loads⟩ |
      ⟨j, saves, hsource⟩
    · exact .inl (H.leaves hleaves)
    · have hbytes := H.bytes
      rw [loads.before] at hbytes
      cases hbytes
    · rcases hsource with ⟨k, f, x, hf, hloc, -⟩ | ⟨-, s, valid, rfl⟩
      · exact absurd ⟨k, f, hf, hloc⟩ H.closed
      · exact .inr ⟨_, saves.holds single inv', .created valid, saves.isOpen⟩

inductive Contains (h : Host) (l : Location) : Option Image → Prop
  | nothing (vacant : h.Vacant l) : Contains h l none
  | table {i : Image} (holds : h.Holds l i) (made : i.Made) : Contains h l (some i)

variable {content : Option Image}

theorem Contains.next (H : h.Contains l content) (inv : h.server.Registered) (hl : l.IsTable)
    (e : Event) (single : (h.next e).OnePath l) : ∃ content', (h.next e).Contains l content' ∧
      ((h.next e).IsOpen l ∨ content' = content) := by
  cases H with
  | nothing vacant =>
    rcases vacant.next inv hl e single with hvacant | ⟨j, hj, made, hopen⟩
    · exact ⟨none, .nothing hvacant, .inr rfl⟩
    · exact ⟨some j, .table hj made, .inl hopen⟩
  | @table i holds made =>
    obtain ⟨j, hj, hmade, hopen⟩ := holds.next made inv hl e single
    exact ⟨some j, .table hj hmade, hopen.imp_right (congrArg some)⟩

theorem Contains.image {k : FileId} {f : OpenFile} (H : h.Contains l content)
    (hf : get? h.server.files k = some f) (hl : f.location = l) : content = some f.image := by
  cases H with
  | nothing vacant => exact absurd ⟨k, f, hf, hl⟩ vacant.closed
  | table holds => rw [holds.image k f hf hl]

theorem Contains.bytes (H : h.Contains l content) :
    h.disk.bytes? l = content.map TableFile.encode := by
  cases H with
  | nothing vacant => exact vacant.bytes
  | table holds => exact holds.bytes

theorem contains_start (config : EngineConfig) {disk : Disk} (hdisk : disk.bytes? l = none) :
    (start config disk).Contains l none :=
  .nothing ⟨hdisk, fun ⟨_, _, hf, _⟩ => nomatch hf⟩

end Host
end Isam
