import Isam.Proofs.Client.Definitions
import Isam.Proofs.Server.RowNumbers
namespace Isam

open FiniteMap

variable {h h' : Host} {l : Location} {schema : Schema} {e : Event} {i j : Image}
  {s : Session Host} {t t₁ u : Table} {name : String}

theorem Image.Advances.schema_eq {x : Option RowId} (h : i.Advances x j) : j.schema = i.schema := by
  cases h <;> rfl

namespace Host

def Stored (h : Host) (l : Location) (schema : Schema) : Prop :=
  ∃ i : Image, h.disk.bytes? l = some (TableFile.encode i) ∧
    (TableFile.encode i).length < Disk.sizeLimit ∧ i.Made ∧ i.schema = schema

structure Defines (h : Host) (l : Location) (schema : Schema) : Prop where
  stored : h.Stored l schema
  image : ∀ n f, get? h.server.files n = some f → f.location = l →
    f.image.Made ∧ f.image.schema = schema

theorem Defines.leaves (defines : h.Defines l schema) (k : h.Leaves h' l) : h'.Defines l schema := by
  obtain ⟨⟨i, hbytes, hi⟩, himage⟩ := defines
  exact ⟨⟨i, k.bytes.trans hbytes, hi⟩, fun n f hf hl => himage n f (k.files n f hf hl) hl⟩

theorem Defines.next (defines : h.Defines l schema) (inv : h.server.Registered) (hl : l.IsTable)
    (preserves : h.Preserves l e) : (h.next e).Defines l schema := by
  cases e with
  | device => exact defines.leaves (leaves_of_files rfl rfl)
  | restart config => exact defines.leaves (leaves_restart config)
  | call q =>
    obtain ⟨i, hbytes, hsize, made, hschema⟩ := defines.stored
    rcases (h.perform_effect q).at_place inv hl with hleaves | ⟨bs, verify, j, hj, loads⟩ |
      ⟨j, saves, hsource⟩
    · exact defines.leaves hleaves
    · have hbefore := loads.before
      rw [hbytes] at hbefore
      cases hbefore
      rw [made.decode_encode hsize] at hj
      cases hj
      refine ⟨⟨i, loads.bytes, hsize, made, hschema⟩, fun n f hf hfl => ?_⟩
      rcases loads.image n f hf hfl with rfl | hf
      · exact ⟨made, hschema⟩
      · exact defines.image n f hf hfl
    · rcases hsource with ⟨n, f, x, hf, hfl, advances⟩ | ⟨hnone | hq, -⟩
      · obtain ⟨hmade, rfl⟩ := defines.image n f hf hfl
        have hj := And.intro (advances.made hmade) advances.schema_eq
        refine ⟨⟨j, saves.bytes, saves.size, hj⟩, fun n g hg hgl => ?_⟩
        rcases saves.image n g hg hgl with rfl | hg
        · exact hj
        · exact defines.image n g hg hgl
      · rw [hbytes] at hnone
        cases hnone
      · exact absurd preserves hq

theorem Defines.run (defines : h.Defines l schema) (inv : h.server.Registered) (hl : l.IsTable)
    {es : List Event} (preserves : Along Host.next (Preserves l) h es) :
    (h.run es).server.Registered ∧ (h.run es).Defines l schema := by
  have step (g : Host) (e : Event) (preserves : g.Preserves l e)
      (kept : g.server.Registered ∧ g.Defines l schema) :
      (g.next e).server.Registered ∧ (g.next e).Defines l schema :=
    ⟨registered_next kept.1 e, kept.2.next kept.1 hl preserves⟩
  exact preserves.keeps step ⟨inv, defines⟩

variable {c : ConnectionId} {a : TableAddress} {id : HandleId} {k : TablePath}

theorem Stored.readSchema (stored : h.Stored k.place schema) (inv : h.server.Registered)
    (shared : ∀ n f, get? h.server.files n = some f → f.path = k → f.image.schema = schema)
    {m : OpenMode} {schema' : Schema} (known : h.disk.key? (h.server.path a) = some k)
    (opened : h.openTable c a m = (.ok id, h')) (read : h'.server.readSchema id = .ok schema') :
    schema' = schema := by
  obtain ⟨j, hj, rfl⟩ := readSchema_eq_ok read
  obtain ⟨x, f, ho, rfl⟩ := image?_eq_some.1 hj
  obtain ⟨hx, hf⟩ := Server.opened_eq_ok.1 ho
  cases Effect.openTable_opened opened with
  | @joined r _ found =>
    rw [Disk.resolve_of_key? known] at found hx
    cases hx.symm.trans (get?_set_self _ _ _)
    obtain ⟨i, hi⟩ := (inv.registration found).file
    cases hi.symm.trans hf
    exact shared r.file _ hi rfl
  | @loaded p i bs verify _ known' _ bytes decoded =>
    cases known.symm.trans known'
    cases hx.symm.trans (get?_set_self _ _ _)
    cases hf.symm.trans (get?_set_self _ _ _)
    obtain ⟨i', hbytes, hsize, made, rfl⟩ := stored
    cases hbytes.symm.trans bytes
    rw [made.decode_encode hsize] at decoded
    cases decoded
    rfl

theorem Stored.opens (stored : h.Stored k.place schema) {m : OpenMode}
    (live : c ∈ h.server.connections) (known : h.disk.key? (h.server.path a) = some k)
    (free : get? h.server.registry k = none) :
    ∃ id h', h.openTable c a m = (.ok id, h') ∧ h'.server.readSchema id = .ok schema := by
  obtain ⟨i, hbytes, hsize, made, rfl⟩ := stored
  have hopen := openTable_eq_ok (m := m) live known free hbytes (made.decode_encode hsize)
  refine ⟨_, _, hopen, ?_⟩
  have ho : (h.server.registerNew c k i m).2.opened (h.server.registerNew c k i m).1 =
      .ok (⟨c, h.server.nextId, m⟩, ⟨k, i⟩) :=
    Server.opened_eq_ok.2 ⟨get?_set_self _ _ _, get?_set_self _ _ _⟩
  rw [Server.readSchema, ho]
  rfl

theorem close_last {s : Server} (inv : s.Consistent) {r : Registration}
    (hr : get? s.registry k = some r) (alone : r.handles = [id]) :
    get? (s.close id).registry k = none := by
  cases hr' : get? (s.close id).registry k with
  | none => rfl
  | some r' =>
    have d := (inv.close id).registration hr'
    obtain ⟨id', hid'⟩ := List.exists_mem_of_ne_nil _ d.occupied
    obtain ⟨x, hx, hfile⟩ := d.handles id' hid'
    obtain ⟨j, hj⟩ := d.file
    rw [Server.get?_handles_close] at hx
    split at hx
    · cases hx
    · rename_i hne
      have hmem := inv.handles_of_path (Server.get?_files_of_close hj) hr hx hfile
      rw [alone, List.mem_singleton] at hmem
      exact absurd hmem.symm hne

theorem close_created (inv : h.server.Registered) {m : CreateMode}
    (created : h.createTable c a schema m = (.ok id, h')) :
    let closed := { h' with server := h'.server.close id }
    schema.numbered.Valid ∧ ∃ k, closed.disk.key? (closed.server.path a) = some k ∧
      k.place.IsTable ∧ closed.Stored k.place schema.numbered ∧
      get? closed.server.registry k = none ∧
      (h.Rooted → closed.Rooted ∧ k.absolute = true) := by
  have inv' := createTable_registered inv created
  have hnext : h.next (.call (.createTable c a schema m)) = h' := congrArg Prod.snd created
  have rooted' (rooted : h.Rooted) : h'.Rooted :=
    hnext ▸ rooted.next inv (e := .call (.createTable c a schema m)) trivial
  obtain ⟨k, d, rfl, rfl, valid, known, free, saved⟩ := Effect.createTable_made created
  have alone : ((h.server.withFile k (.ofSchema schema.numbered)).joined k h.server.nextId
      .normal).handles = [h.server.nextId + 1] := by
    have hfree : get? (h.server.withFile k (.ofSchema schema.numbered)).registry k = none := free
    rw [Server.joined_of_free hfree]
    rfl
  refine ⟨⟨rfl, valid⟩, k, ?_, Disk.isTable_of_key? rfl known,
    ⟨_, saved.bytes, saved.size, .created valid, rfl⟩,
    close_last inv'.toConsistent (get?_set_self _ _ _) alone, fun rooted => ?_⟩
  · rw [Server.path, Server.close_config]
    exact known
  · exact ⟨(rooted' rooted).next inv' (e := .call (.closeTable _)) trivial,
      rooted.path_absolute known⟩

end Host

namespace Table

theorem openStored_eq_ok {c : ConnectionId} {m : OpenMode} {id : HandleId} {loaded : Table}
    (he : s.engine = Host.engine) (hc : t.checkOpen s name = .ok c)
    (hopen : h.openTable c (s.addressOf t.path name) m = (.ok id, h'))
    (hread : h'.server.readSchema id = .ok schema) (hload : t.load schema = .ok loaded) :
    (t.openStored s name m h).1 = .ok () := by
  have hcall : s.engine.openTable c (s.addressOf t.path name) m h = (.ok id, h') := by
    rw [he]
    exact hopen
  have hschema : s.engine.readSchema id h' = (.ok schema, h') := by
    rw [he]
    exact congrArg (·, h') hread
  simp only [openStored, hc, hcall, hschema, Except.bind, hload]

variable {h₁ : Host} {mode : CreateMode}

/-- A table that is created and closed is there for everyone. Whoever opens it by its path at once has
its fields and its indexes, whatever the opening table had before. So has whoever opens it later, as
long as its file is not created anew, if no other path had it open when it was created, as none has
while the engines have a data directory. -/
theorem definitions_reopen (config : EngineConfig) (disk : Disk) (es : List Event)
    (built : t.Built) (hosted : s.engine = Host.engine)
    (created : t.create s name mode ((Host.start config disk).run es) = (.ok (), t₁, h₁)) :
    let h₂ := (t₁.close s h₁).2.2
    ∃ k, h₂.disk.key? (h₂.server.path (s.addressOf t.path name)) = some k ∧
      get? h₂.server.registry k = none ∧
      (config.OnDirectory → (∀ e ∈ es, e.OnDirectory) → ¬ h₂.IsOpen k.place) ∧
      ∀ fs, Along Host.next (Host.Preserves k.place) h₂ fs →
        let g := h₂.run fs
        ∀ (u : Table) (s' : Session Host) (name' : String) (mode' : OpenMode) (k' : TablePath),
          s'.engine = Host.engine →
          g.disk.key? (g.server.path (s'.addressOf u.path name')) = some k' →
          k'.place = k.place → (h₂.IsOpen k.place → fs = [] ∧ k' = k) →
          (∀ u' g', u.openStored s' name' mode' g = (.ok (), u', g') →
            u'.fields = t.fields.map (·.inTable u.id) ∧
            u'.indexes = t.indexes.map fun i => i.freeze.inTable u.id) ∧
          ∀ c, u.checkOpen s' name' = .ok c → c ∈ g.server.connections →
            get? g.server.registry k' = none → (u.openStored s' name' mode' g).1 = .ok () := by
  intro h₂
  have sane := Host.registered_run config disk es
  rcases t.create_cases hosted name mode _ with ⟨e, h', hrefused, -⟩ |
    ⟨c, id, h', -, hmade, hcreated⟩
  · rw [hrefused] at created
    cases created
  rw [hcreated] at created
  cases created
  have inv : h₂.server.Registered := by
    rw [show h₂ = _ from congrArg (·.2.2) (close_eq _ hosted h₁)]
    exact Host.registered_next (Host.createTable_registered sane hmade) (.call (.closeTable id))
  obtain ⟨valid, k, known, hl, stored, free, rooted⟩ := Host.close_created sane hmade
  have hh₂ : { h₁ with server := h₁.server.close id } = h₂ := by
    rw [show h₂ = _ from congrArg (·.2.2) (close_eq _ hosted h₁)]
  rw [hh₂] at known stored free rooted
  refine ⟨k, known, free, fun directory hes => ?_, ?_⟩
  · obtain ⟨rooted, absolute⟩ := rooted (Host.rooted_throughout directory disk hes).last
    exact rooted.not_isOpen inv.toConsistent absolute free
  intro fs preserves g u s' name' mode' k' hosted' known' hk' once
  obtain ⟨inv', stored', shared⟩ : g.server.Registered ∧ g.Stored k'.place t.schema.numbered ∧
      ∀ n f, get? g.server.files n = some f → f.path = k' →
        f.image.schema = t.schema.numbered := by
    by_cases hopen : h₂.IsOpen k.place
    · obtain ⟨rfl, rfl⟩ := once hopen
      refine ⟨inv, stored, fun n f hf hfk => ?_⟩
      obtain ⟨r, hr, -⟩ := inv.file hf
      rw [hfk, free] at hr
      cases hr
    · have defines : h₂.Defines k.place t.schema.numbered :=
        ⟨stored, fun n f hf hfl => absurd ⟨n, f, hf, hfl⟩ hopen⟩
      obtain ⟨inv', defines'⟩ := defines.run inv hl preserves
      refine ⟨inv', hk' ▸ defines'.stored, fun n f hf hfk => ?_⟩
      exact (defines'.image n f hf (by rw [OpenFile.location, hfk, hk'])).2
  obtain ⟨numbers, hload⟩ := built.defined.load_schema valid u
  constructor
  · intro u' g' hopened
    obtain ⟨c', id', schema, loaded, hopen, hread, hloaded, rfl⟩ := openStored_ok hosted' hopened
    obtain rfl := stored'.readSchema inv' shared known' hopen hread
    rw [show t.schema.numbered = t.schema from rfl, hload] at hloaded
    cases hloaded
    exact ⟨rfl, rfl⟩
  · intro c' hc live hfree
    obtain ⟨id', g₁, hopen, hread⟩ := stored'.opens live known' hfree
    exact openStored_eq_ok hosted' hc hopen hread hload

def composed : List TableCall := [
  .addField "id" .uInteger 4 { default := some (.value (.unsigned 7)) },
  .addField "name" .varChar 20 { allowNull := some (.bool false), collation := some (.text "C") },
  .addIndex "by" .leading, .addSegment "by" "name" { ignoreCase := true },
  .addSegment "by" "id" { descending := true }, .addSegment "by" "name" {},
  .editIndex "by" (.allowDuplicates true), .editIndex "by" (.allowNullKeys false)]

def client (c : ConnectionId) : Session Host :=
  { Session.ofMode Host.engine .ctree with connection := some c }

def compose (t : Table) (calls : List TableCall) : Table :=
  calls.foldl (fun t call => (t.call call (client 1) ((Host.start {} .empty).run [])).2.1) t

theorem composed_reopens : ∃ (t u t₁ u' : Table) (h₁ g' : Host), t.Built ∧
    t.indexes.map (fun i => (i.segments.map (·.number), i.allowDuplicates, i.allowNullKeys)) =
      [([1, 0, 1], true, false)] ∧
    u.fields.map (·.name) = ["other"] ∧
    t.create (client 1) "t" .normal
      ((Host.start {} .empty).run [.call (.connect "FAIRCOMS" ⟨"", ""⟩)]) = (.ok (), t₁, h₁) ∧
    u.openStored (client 1) "t" .exclusive ((t₁.close (client 1) h₁).2.2.run
      [.restart {}, .call (.connect "FAIRCOMS" ⟨"", ""⟩)]) = (.ok (), u', g') ∧
    u'.fields = t.fields.map (·.inTable u.id) ∧
    u'.indexes = t.indexes.map fun i => i.freeze.inTable u.id := by
  have built : (compose { id := 1 } composed).Built := by
    refine (Built.new 1).calls rfl {} .empty [] ?_
    simp [composed, TableCall.OwnFields]
  obtain ⟨hindexes, hother, hcreated, hopen, hkey, hlive, hfree⟩ :
      let t := compose { id := 1 } composed
      let u := compose { id := 2 } [.addField "other" .bool 1 {}]
      let r := t.create (client 1) "t" .normal
        ((Host.start {} .empty).run [.call (.connect "FAIRCOMS" ⟨"", ""⟩)])
      let g := (r.2.1.close (client 1) r.2.2).2.2.run
        [.restart {}, .call (.connect "FAIRCOMS" ⟨"", ""⟩)]
      t.indexes.map (fun i => (i.segments.map (·.number), i.allowDuplicates, i.allowNullKeys)) =
        [([1, 0, 1], true, false)] ∧
      u.fields.map (·.name) = ["other"] ∧ r.1 = .ok () ∧
      u.checkOpen (client 1) "t" = .ok 1 ∧
      g.disk.key? (g.server.path ((client 1).addressOf u.path "t")) =
        (r.2.1.close (client 1) r.2.2).2.2.disk.key?
          ((r.2.1.close (client 1) r.2.2).2.2.server.path ((client 1).addressOf t.path "t")) ∧
      1 ∈ g.server.connections ∧ g.server.registry = [] := by
    decide +kernel
  generalize compose { id := 1 } composed = t at *
  generalize compose { id := 2 } [.addField "other" .bool 1 {}] = u at *
  generalize hr : t.create (client 1) "t" .normal
    ((Host.start {} .empty).run [.call (.connect "FAIRCOMS" ⟨"", ""⟩)]) = r at *
  obtain ⟨answer, t₁, h₁⟩ := r
  cases hcreated
  obtain ⟨k, known, -, closed, reopens⟩ := definitions_reopen {} .empty _ built rfl hr
  have closed := closed (fun h => nomatch h) (by simp [Event.OnDirectory])
  have preserves : Along Host.next (Host.Preserves k.place) (t₁.close (client 1) h₁).2.2
      [.restart {}, .call (.connect "FAIRCOMS" ⟨"", ""⟩)] := by
    refine ⟨?_, ?_, trivial⟩ <;>
    · rintro q k' hq - ⟨c, a, s, id, rfl, -⟩
      cases hq
  obtain ⟨same, opens⟩ := reopens _ preserves u (client 1) "t" .exclusive k rfl (hkey.trans known)
    rfl fun hopen => absurd hopen closed
  have hopened := opens 1 hopen hlive (by rw [hfree]; rfl)
  generalize hr' : u.openStored (client 1) "t" .exclusive _ = r' at hopened
  obtain ⟨answer, u', g'⟩ := r'
  cases hopened
  exact ⟨t, u, t₁, u', h₁, g', built, hindexes, hother, hr, hr', same u' g' hr'⟩

end Table
end Isam
