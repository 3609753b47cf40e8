import Isam.Proofs.Server.Authority
import Isam.Proofs.Schema.Valid
namespace Isam

open FiniteMap

variable {h h' : Host} {q : Request} {P : Image → Prop} {l : Location} {i j : Image}
  {bs : List UInt8} {verify : Bool}

inductive Source (h : Host) (q : Request) : Image → Prop
  | kept {n : FileId} {f : OpenFile} (file : get? h.server.files n = some f) : Source h q f.image
  | created {c : ConnectionId} {a : TableAddress} {s : Schema} {m : CreateMode}
    (asked : q = .createTable c a s m) (valid : s.numbered.validate = .ok ()) :
    Source h q (.ofSchema s.numbered)
  | decoded {l : Location} {bs : List UInt8} {verify : Bool} {i : Image} (hl : l.IsTable)
    (bytes : h.disk.bytes? l = some bs) (decoded : TableFile.decode bs verify = .ok i) :
    Source h q i
  | stored {n : FileId} {f : OpenFile} {target : Option RowId} {row : Row}
    (file : get? h.server.files n = some f) (conforms : f.image.schema.checkRow row = .ok ())
    (found : ∀ id, target = some id → f.image.rows.contains id = true)
    (room : target = none → f.image.nextRow.toNat + 1 < UInt64.size) :
    Source h q (f.image.store target row).2
  | removed {n : FileId} {f : OpenFile} (file : get? h.server.files n = some f) (id : RowId) :
    Source h q (f.image.remove id)

theorem Effect.source (e : Effect h q h') (inv : h.server.Registered) {n : FileId} {f : OpenFile}
    (hf : get? h'.server.files n = some f) : Source h q f.image := by
  cases e with
  | unchanged | connected | joined | locked | unlocked | rowLocked | rowUnlocked => exact .kept hf
  | disconnected => exact .kept (inv.get?_files_of_disconnect hf)
  | closed id => exact .kept (Server.get?_files_of_close hf)
  | created _ _ valid =>
    rcases Server.get?_files_of_registerNew hf with ⟨-, rfl⟩ | hf
    · exact .created rfl valid
    · exact .kept hf
  | loaded _ known _ bytes decoded =>
    rcases Server.get?_files_of_registerNew hf with ⟨-, rfl⟩ | hf
    · exact .decoded (Disk.isTable_of_key? rfl known) bytes decoded
    · exact .kept hf
  | wrote allowed =>
    rcases Server.get?_files_of_setImage hf with ⟨-, rfl⟩ | hf
    · exact .stored allowed.file allowed.conforms allowed.target_stored allowed.room
    · exact .kept hf
  | deleted allowed =>
    rcases Server.get?_files_of_setImage hf with ⟨-, rfl⟩ | hf
    · exact .removed allowed.file _
    · exact .kept hf

theorem Disk.Replaced.decoded {d d' : Disk} {l' : Location} (saved : d.Replaced l'
    (TableFile.encode i) d') (hl : l.IsTable) (hbs : d'.bytes? l = some bs)
    (hj : TableFile.decode bs verify = .ok j) :
    d.bytes? l = some bs ∨ j = { i with schema := i.schema.numbered } := by
  by_cases hll : l = l'
  · rw [hll, saved.bytes, Option.some.injEq] at hbs
    rw [← hbs] at hj
    exact .inr (TableFile.decode_encode_eq_ok (Image.count_lt_of_size saved.size) hj)
  · rw [saved.others l hl hll] at hbs
    exact .inl hbs

theorem Effect.source_stored (e : Effect h q h') (hl : l.IsTable)
    (hbs : h'.disk.bytes? l = some bs) (hj : TableFile.decode bs verify = .ok j) :
    Source h q j ∨ ∃ i, Source h q i ∧ j = { i with schema := i.schema.numbered } := by
  have old (hbs : h.disk.bytes? l = some bs) : Source h q j := .decoded hl hbs hj
  cases e with
  | unchanged _ kept =>
    rw [kept.bytes l hl] at hbs
    exact .inl (old hbs)
  | connected | disconnected | joined | loaded | closed | locked | unlocked | rowLocked |
    rowUnlocked => exact .inl (old hbs)
  | created _ _ valid _ _ saved =>
    exact (saved.decoded hl hbs hj).imp old fun heq => ⟨_, .created rfl valid, heq⟩
  | wrote allowed _ saved =>
    refine (saved.decoded hl hbs hj).imp old fun heq => ⟨_, ?_, heq⟩
    exact .stored allowed.file allowed.conforms allowed.target_stored allowed.room
  | deleted allowed _ saved =>
    exact (saved.decoded hl hbs hj).imp old fun heq => ⟨_, .removed allowed.file _, heq⟩

namespace Host

structure Images (P : Image → Prop) (h : Host) : Prop where
  opened : ∀ n f, get? h.server.files n = some f → P f.image
  stored : ∀ l bs verify i, l.IsTable → h.disk.bytes? l = some bs →
    TableFile.decode bs verify = .ok i → P i

theorem images_start (config : EngineConfig) {disk : Disk}
    (stored : ∀ l bs verify i, l.IsTable → disk.bytes? l = some bs →
      TableFile.decode bs verify = .ok i → P i) : (start config disk).Images P :=
  ⟨nofun, stored⟩

end Host

theorem Effect.images (e : Effect h q h') (inv : h.server.Registered)
    (numbered : ∀ i, P i → P { i with schema := i.schema.numbered })
    (new : ∀ i, Source h q i → P i) : h'.Images P := by
  constructor
  · intro n f hf
    exact new _ (e.source inv hf)
  · intro l bs verify j hl hbs hj
    rcases e.source_stored hl hbs hj with source | ⟨i, source, rfl⟩
    · exact new j source
    · exact numbered i (new i source)

structure Schema.Valid (s : Schema) : Prop where
  numbered : s.numbered = s
  valid : s.validate = .ok ()

theorem TableFile.decode_valid (hd : TableFile.decode bs verify = .ok i) : i.schema.Valid := by
  obtain ⟨⟨⟩, -, hd⟩ := bind_eq_ok.1 hd
  obtain ⟨k, hk, hd⟩ := bind_eq_ok.1 hd
  obtain ⟨⟨⟩, valid, ⟨⟩⟩ := bind_eq_ok.1 hd
  refine ⟨?_, valid⟩
  unfold readPayload at hk
  split at hk
  · cases hk
    rfl
  · cases hk

theorem Schema.Valid.field_number {s : Schema} (valid : s.Valid) {k : Nat} {d : FieldDecl}
    (hd : s.fields[k]? = some d) : d.number.toNat = k := by
  have hcheck := Schema.checkFields_eq_ok.1 (Schema.checkFields_of_validate valid.valid) k d hd
  rw [Nat.zero_add] at hcheck
  exact (Schema.checkField_eq_ok.1 hcheck).1

theorem Source.valid (source : Source h q i) (old : h.Images (·.schema.Valid)) :
    i.schema.Valid := by
  cases source with
  | kept file => exact old.opened _ _ file
  | created _ valid => exact ⟨rfl, valid⟩
  | decoded _ _ decoded => exact TableFile.decode_valid decoded
  | stored file =>
    rw [Image.store_schema]
    exact old.opened _ _ file
  | removed file => exact (old.opened _ _ file :)

namespace Host

theorem Images.next (old : h.Images P) (inv : h.server.Registered)
    (numbered : ∀ i, P i → P { i with schema := i.schema.numbered })
    (new : ∀ q i, Source h q i → P i) (e : Event) : (h.next e).Images P := by
  cases e with
  | call q => exact (h.perform_effect q).images inv numbered (new q)
  | device => exact ⟨old.opened, old.stored⟩
  | restart config => exact images_start config old.stored

theorem images_valid (config : EngineConfig) (disk : Disk) :
    (start config disk).Images (·.schema.Valid) :=
  images_start config fun _ _ _ _ _ _ => TableFile.decode_valid

theorem Images.valid_next (valid : h.Images (·.schema.Valid)) (inv : h.server.Registered)
    (e : Event) : (h.next e).Images (·.schema.Valid) := by
  apply valid.next inv
  · intro i hi
    rw [hi.numbered]
    exact hi
  · exact fun q i source => source.valid valid

theorem valid_run (config : EngineConfig) (disk : Disk) (es : List Event) :
    ((start config disk).run es).Images (·.schema.Valid) :=
  run_registered config disk es (images_valid config disk) fun _ e inv valid =>
    valid.valid_next inv e

end Host
end Isam
