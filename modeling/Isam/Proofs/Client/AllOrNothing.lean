import Isam.Proofs.Client.Bindings
import Isam.Proofs.Server.GivenBack
namespace Isam

namespace Engine

/-- An engine in front of a host. It may refuse what it is asked for and read whatever it likes, but
it closes handles. -/
structure Fronts (e : Engine Host) : Prop where
  createTable : ∀ c a s m h, e.createTable c a s m h = h.createTable c a s m ∨
    ∃ err, e.createTable c a s m h = (.error err, h)
  openTable : ∀ c a m h, e.openTable c a m h = h.openTable c a m ∨
    ∃ err, e.openTable c a m h = (.error err, h)
  readSchema : ∀ id h, (e.readSchema id h).2 = h
  closeTable : ∀ id h, e.closeTable id h = (.ok (), h.perform (.closeTable id))

theorem fronts_host : Host.engine.Fronts where
  createTable _ _ _ _ _ := .inl rfl
  openTable _ _ _ _ := .inl rfl
  readSchema _ _ := rfl
  closeTable _ _ := rfl

theorem Fronts.faulty {e : Engine Host} (fronts : e.Fronts) {f : Fault} (closes : f ≠ .close) :
    (e.faulty f).Fronts where
  createTable := fronts.createTable
  openTable := fronts.openTable
  readSchema id h := by
    simp only [Engine.faulty]
    split
    · rfl
    · split <;> exact fronts.readSchema id h
  closeTable id h := by
    simp only [Engine.faulty, if_neg closes]
    exact fronts.closeTable id h

theorem Fronts.createTable_failed {e : Engine Host} (fronts : e.Fronts) {c : ConnectionId}
    {a : TableAddress} {s : Schema} {m : CreateMode} {h h' : Host} {err : Error}
    (failed : e.createTable c a s m h = (.error err, h')) : h.Untouched h' := by
  rcases fronts.createTable c a s m h with hsame | ⟨_, hrefused⟩
  · have untouched := h.allOrNothing_createTable c a s m err
    rw [← hsame, failed] at untouched
    exact untouched rfl
  · rw [hrefused] at failed
    cases failed
    exact .refl h

theorem Fronts.openTable_failed {e : Engine Host} (fronts : e.Fronts) {c : ConnectionId}
    {a : TableAddress} {m : OpenMode} {h h' : Host} {err : Error}
    (failed : e.openTable c a m h = (.error err, h')) : h' = h := by
  rcases fronts.openTable c a m h with hsame | ⟨_, hrefused⟩
  · rw [hsame] at failed
    rcases Effect.openTable_cases c a m with ⟨_, hrefused⟩ | ⟨_, _, hopened, -⟩
    · rw [hrefused] at failed
      cases failed
      rfl
    · rw [hopened] at failed
      cases failed
  · rw [hrefused] at failed
    cases failed
    rfl

theorem Fronts.openTable_opened {e : Engine Host} (fronts : e.Fronts) {c : ConnectionId}
    {a : TableAddress} {m : OpenMode} {h h' : Host} {id : HandleId}
    (opened : e.openTable c a m h = (.ok id, h')) : h.openTable c a m = (.ok id, h') := by
  rcases fronts.openTable c a m h with hsame | ⟨_, hrefused⟩
  · rw [← hsame, opened]
  · rw [hrefused] at opened
    cases opened

end Engine

namespace Table

variable {σ : Type} {t u : Table} {s : Session σ} {name : String} {st st' : σ} {e : Error}

theorem create_failed {m : CreateMode} (failed : t.create s name m st = (.error e, u, st')) :
    u = t ∧ (st' = st ∨ ∃ c,
      s.engine.createTable c (s.addressOf t.path name) t.schema m st = (.error e, st')) := by
  rcases t.create_asks s name m st with ⟨_, refused⟩ |
    ⟨c, -, ⟨_, _, asked, refused⟩ | ⟨_, _, -, created⟩⟩
  · rw [refused] at failed
    cases failed
    exact ⟨rfl, .inl rfl⟩
  · rw [refused] at failed
    cases failed
    exact ⟨rfl, .inr ⟨c, asked⟩⟩
  · rw [created] at failed
    cases failed

theorem openStored_failed {m : OpenMode} (failed : t.openStored s name m st = (.error e, u, st')) :
    u = t ∧ (st' = st ∨ ∃ c,
      s.engine.openTable c (s.addressOf t.path name) m st = (.error e, st') ∨
      ∃ id opened, s.engine.openTable c (s.addressOf t.path name) m st = (.ok id, opened) ∧
        st' = (s.engine.closeTable id (s.engine.readSchema id opened).2).2) := by
  rcases t.openStored_asks s name m st with ⟨_, refused⟩ |
    ⟨c, -, ⟨_, _, asked, refused⟩ | ⟨id, opened, asked, ⟨_, returned⟩ | ⟨_, _, -, -, bound⟩⟩⟩
  · rw [refused] at failed
    cases failed
    exact ⟨rfl, .inl rfl⟩
  · rw [refused] at failed
    cases failed
    exact ⟨rfl, .inr ⟨c, .inl asked⟩⟩
  · rw [returned] at failed
    cases failed
    exact ⟨rfl, .inr ⟨c, .inr ⟨id, opened, asked, rfl⟩⟩⟩
  · rw [bound] at failed
    cases failed

end Table

namespace Host

variable {h h' : Host} {s : Session Host} {t u : Table} {name : String} {e : Error}

theorem create_untouched (fronts : s.engine.Fronts) {m : CreateMode}
    (failed : t.create s name m h = (.error e, u, h')) : u = t ∧ h.Untouched h' := by
  obtain ⟨hu, rfl | ⟨c, hrefused⟩⟩ := Table.create_failed failed
  · exact ⟨hu, .refl _⟩
  · exact ⟨hu, fronts.createTable_failed hrefused⟩

theorem Sane.openStored_givenBack (sane : h.Sane) (fronts : s.engine.Fronts) {m : OpenMode}
    (failed : t.openStored s name m h = (.error e, u, h')) : u = t ∧ h.GivenBack h' := by
  obtain ⟨hu, rfl | ⟨c, hrefused | ⟨id, opened, hopen, rfl⟩⟩⟩ := Table.openStored_failed failed
  · exact ⟨hu, .refl _⟩
  · obtain rfl := fronts.openTable_failed hrefused
    exact ⟨hu, .refl _⟩
  · have hopened := fronts.openTable_opened hopen
    rw [fronts.readSchema, fronts.closeTable]
    exact ⟨hu, sane.openTable_givenBack hopened⟩

end Host

/-- Where a table is not created or opened, it is as it was, whatever the engine did. An engine in
front of a host has its handles, its registry with the marks of exclusive openings, and its locks as
before, though a handle may have been given and taken back. -/
theorem Table.binding_all_or_nothing :
    (∀ {σ : Type} (t : Table) (s : Session σ) (name : String) (st : σ) (e : Error),
      (∀ m, (t.create s name m st).1 = .error e → (t.create s name m st).2.1 = t) ∧
      ∀ m, (t.openStored s name m st).1 = .error e → (t.openStored s name m st).2.1 = t) ∧
    ∀ (config : EngineConfig) (disk : Disk) (es : List Event) (t : Table) (s : Session Host)
      (name : String) (e : Error), s.engine.Fronts →
      let h := (Host.start config disk).run es
      (∀ m, let created := t.create s name m h
        created.1 = .error e → created.2.1 = t ∧ h.Untouched created.2.2) ∧
      ∀ m, let opened := t.openStored s name m h
        opened.1 = .error e → opened.2.1 = t ∧ h.GivenBack opened.2.2 := by
  refine ⟨fun t s name st e => ⟨?_, ?_⟩, fun config disk es t s name e fronts => ⟨?_, ?_⟩⟩
  · intro m failed
    exact (create_failed (Prod.ext failed rfl)).1
  · intro m failed
    exact (openStored_failed (Prod.ext failed rfl)).1
  · intro m created failed
    exact Host.create_untouched fronts (Prod.ext failed rfl)
  · intro m opened failed
    exact (Host.sane_run config disk es).openStored_givenBack fronts (Prod.ext failed rfl)

def Table.stale : Table where
  id := 7
  name := some "t"
  fields := [⟨7, 0, "n", .uInteger, 4, .none⟩]
  numbers := [("n", 0)]
  indexes := [{ table := 7, number := 0, name := "by", kind := .fixed, frozen := true
                segments := [⟨"n", 0, 4, {}⟩] }]
  binding := some ⟨9, 4, .normal⟩

def Session.haunted : Session Host :=
  { Session.ofMode (Host.engine.faulty .ghost) .ctdb with connection := some 2 }

theorem Table.stale_as_before :
    let h := (Host.start {} .empty).run Host.sharedTable
    let opened := stale.openStored Session.haunted "t" .normal h
    let created := stale.create Session.haunted "t" .overwrite h
    opened.1 = .error (.unknownSegmentField "haunted" "ghost") ∧ opened.2.1 = stale ∧
      h.GivenBack opened.2.2 ∧ opened.2.2.server.nextId = h.server.nextId + 1 ∧
      opened.2.2.server.locks.holds? 2 (.row 3 1) = some .exclusive ∧
      created.1 = .error (.recreatedWhileOpen "t") ∧ created.2.1 = stale ∧
      h.Untouched created.2.2 := by
  dsimp only
  have fronts : Session.haunted.engine.Fronts := Engine.fronts_host.faulty (by decide)
  have both := binding_all_or_nothing.2 {} .empty Host.sharedTable stale Session.haunted "t"
  have hopened : (stale.openStored Session.haunted "t" .normal
      ((Host.start {} .empty).run Host.sharedTable)).1 =
        .error (.unknownSegmentField "haunted" "ghost") := by decide +kernel
  have hcreated : (stale.create Session.haunted "t" .overwrite
      ((Host.start {} .empty).run Host.sharedTable)).1 =
        .error (.recreatedWhileOpen "t") := by decide +kernel
  obtain ⟨hstale, hback⟩ := (both _ fronts).2 .normal hopened
  obtain ⟨hstill, huntouched⟩ := (both _ fronts).1 .overwrite hcreated
  exact ⟨hopened, hstale, hback, by decide +kernel, by decide +kernel, hcreated, hstill,
    huntouched⟩

end Isam
