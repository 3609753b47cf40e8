import Isam.Proofs.Server.Authority
import Isam.Proofs.Server.Orphans
import Isam.Proofs.Server.Places
namespace Isam

open FiniteMap

variable {h h' : Host} {q : Request} {e : Event} {o : ConnectionId} {n : FileId}
  {f f' : OpenFile} {l : Location} {bs : List UInt8}

namespace Host

def ByOther (o : ConnectionId) (h : Host) : Event → Prop
  | .call q => h.server.caller? q ≠ some o
  | .device _ => True
  | .restart _ => False

structure Locked (o : ConnectionId) (h : Host) : Prop where
  registered : h.server.Registered
  guarded : h.server.Guarded
  held : h.server.locks.holds? o .session = some .exclusive

end Host

theorem Effect.keeps_session {k : LockKind} (e : Effect h q h') (inv : h.server.Registered)
    (guarded : h.server.Guarded) (held : h.server.locks.holds? o .session = some k)
    (other : h.server.caller? q ≠ some o) : h'.server.locks.holds? o .session = some k := by
  have hne {c : ConnectionId} (hc : h.server.caller? q = some c) : o ≠ c := by
    rintro rfl
    exact other hc
  cases e with
  | unchanged | connected | created | joined | loaded | wrote | deleted => exact held
  | disconnected c =>
    by_cases hc : c ∈ h.server.connections
    · rw [guarded.holds?_disconnect inv.toConsistent hc, if_neg (hne rfl)]
      exact held
    · rwa [Server.disconnect_of_not_mem hc]
  | closed id =>
    rw [guarded.holds?_close_other inv.toNumbered]
    · exact held
    · intro x hx
      apply hne
      rw [Server.caller?, hx, Option.map_some]
  | locked =>
    rw [LockTable.holds?_grant, if_neg]
    · exact held
    · intro h
      exact hne rfl h.1
  | unlocked asked =>
    rw [Server.unlock, guarded.indexed.holds?_releaseAll, if_neg]
    · exact held
    · rcases asked with rfl | rfl <;> exact hne rfl
  | rowLocked =>
    rw [LockTable.holds?_grant, if_neg]
    · exact held
    · intro h
      cases h.2
  | rowUnlocked =>
    rw [LockTable.holds?_release, if_neg]
    · exact held
    · intro h
      cases h.2

theorem Server.MayWrite.session_free {s : Server} {id : HandleId} {x : Handle}
    (may : s.MayWrite id x f) (hne : o ≠ x.connection) : s.locks.holds? o .session = none :=
  LockTable.conflictingHolder?_exclusive_eq_none.1 may.session o hne

namespace Host

variable {id : HandleId} {x : Handle}

theorem Locked.after (locked : h.Locked o) (other : h.ByOther o e) : (h.next e).Locked o := by
  refine ⟨registered_next locked.registered e, ?_, ?_⟩
  · cases e with
    | call q => exact (h.perform_effect q).guarded locked.registered locked.guarded
    | device => exact locked.guarded
    | restart => exact other.elim
  · cases e with
    | call q =>
      exact (h.perform_effect q).keeps_session locked.registered locked.guarded locked.held other
    | device => exact locked.held
    | restart => exact other.elim

theorem Locked.not_mayWrite (locked : h.Locked o) (other : h.server.caller? q ≠ some o)
    (hq : h.server.caller? q = (get? h.server.handles id).map (·.connection)) :
    ¬ h.server.MayWrite id x f := by
  intro may
  have hne : o ≠ x.connection := by
    rintro rfl
    rw [hq, may.handle] at other
    exact other rfl
  have hfree := may.session_free hne
  rw [locked.held] at hfree
  cases hfree

theorem Locked.image_eq (locked : h.Locked o) (other : h.server.caller? q ≠ some o)
    (hf : get? h.server.files n = some f) (hf' : get? (h.perform q).server.files n = some f') :
    f' = f := by
  rcases (h.perform_effect q).at_file locked.registered hf hf' with heq |
    ⟨id, target, row, x, rfl, -, allowed, -⟩ | ⟨id, k, row, x, rfl, -, allowed, -⟩
  · exact heq
  · exact absurd allowed.toMayWrite (locked.not_mayWrite other rfl)
  · exact absurd allowed.toMayWrite (locked.not_mayWrite other rfl)

theorem Locked.bytes_eq (locked : h.Locked o) (other : h.server.caller? q ≠ some o)
    (hl : l.IsTable) (hbs : h.disk.bytes? l = some bs) (preserves : h.Preserves l (.call q)) :
    (h.perform q).disk.bytes? l = some bs := by
  have e := h.perform_effect q
  generalize h.perform q = h' at e
  cases e with
  | unchanged _ kept => rw [kept.bytes l hl, hbs]
  | connected | disconnected | joined | loaded | closed | locked | unlocked | rowLocked |
    rowUnlocked => exact hbs
  | created _ _ _ known _ saved answer fresh =>
    have hne := createTable_elsewhere preserves hbs answer known fresh
    rw [saved.others l hl hne.symm, hbs]
  | wrote allowed => exact absurd allowed.toMayWrite (locked.not_mayWrite other rfl)
  | deleted allowed => exact absurd allowed.toMayWrite (locked.not_mayWrite other rfl)

theorem Recreates.emptied {k : TablePath} (hq : h.Recreates q k) :
    get? h.server.registry k = none ∧ ∃ s : Schema,
      (h.perform q).disk.bytes? k.place = some (TableFile.encode (.ofSchema s.numbered)) := by
  obtain ⟨c, a, s, id, rfl, hid, hkey, -⟩ := hq
  have hperform : h.perform (.createTable c a s .overwrite) = (h.createTable c a s .overwrite).2 :=
    rfl
  rw [hperform] at hkey ⊢
  rcases Effect.createTable_cases (h := h) c a s .overwrite with ⟨e, d, leftover, hrefused, -⟩ |
    ⟨p, d, hmade, -, -, known, free, saved, -⟩
  · rw [hrefused] at hid
    cases hid
  · rw [hmade] at hkey ⊢
    obtain rfl : p = k := Option.some.inj (known.symm.trans hkey)
    exact ⟨free, s, saved.bytes⟩

theorem Recreates.not_isOpen {k : TablePath} (hq : h.Recreates q k) (inv : h.server.Registered)
    (rooted : h.Rooted) : ¬ h.IsOpen k.place := by
  have ⟨c, a, s, id, _, _, hkey, _⟩ := hq
  exact rooted.not_isOpen inv.toConsistent (rooted.path_absolute hkey) hq.emptied.1

theorem Locked.run (locked : h.Locked o) {es : List Event} (others : Along next (ByOther o) h es) :
    (h.run es).Locked o :=
  others.keeps (fun _ _ other locked => Locked.after locked other) locked

structure Retains (g : Host) (n : FileId) (f : OpenFile) : Prop where
  given : n < g.server.nextId
  image : ∀ f', get? g.server.files n = some f' → f' = f

theorem Locked.retains (locked : h.Locked o) (other : h.ByOther o e) (retains : h.Retains n f) :
    (h.next e).Retains n f := by
  cases e with
  | call q =>
    have outlives := (h.perform_effect q).outlives locked.registered
    refine ⟨Nat.lt_of_lt_of_le retains.given outlives.nextId, fun f' hf' => ?_⟩
    obtain ⟨i, hi⟩ := Server.filePath?_eq_some.1 (outlives.files n f' hf' retains.given)
    rw [locked.image_eq other hi hf', retains.image _ hi]
  | device => exact ⟨retains.given, retains.image⟩
  | restart => exact other.elim

theorem Locked.run_image (locked : h.Locked o) {es : List Event}
    (others : Along next (ByOther o) h es) (hf : get? h.server.files n = some f)
    (hf' : get? (h.run es).server.files n = some f') : f' = f := by
  have start : h.Retains n f := by
    refine ⟨locked.registered.file_lt hf, fun f' hf' => ?_⟩
    exact Option.some.inj (hf'.symm.trans hf)
  have step : ∀ (g : Host) e, g.ByOther o e → g.Locked o ∧ g.Retains n f →
      (g.next e).Locked o ∧ (g.next e).Retains n f := by
    rintro g e other ⟨locked, retains⟩
    exact ⟨locked.after other, locked.retains other retains⟩
  exact (others.keeps step ⟨locked, start⟩).2.image f' hf'

theorem Locked.run_bytes (locked : h.Locked o) {es : List Event}
    (others : Along next (ByOther o) h es) (preserves : Along next (Preserves l) h es)
    (hl : l.IsTable) (hbs : h.disk.bytes? l = some bs) : (h.run es).disk.bytes? l = some bs := by
  have step : ∀ (g : Host) e, g.ByOther o e ∧ g.Preserves l e → g.Locked o ∧ g.disk.bytes? l = some bs →
      (g.next e).Locked o ∧ (g.next e).disk.bytes? l = some bs := by
    rintro g e ⟨other, preserves⟩ ⟨locked, hbs⟩
    refine ⟨locked.after other, ?_⟩
    cases e with
    | call q => exact locked.bytes_eq other hl hbs preserves
    | device => exact hbs
    | restart => exact other.elim
  exact ((others.both preserves).keeps step ⟨locked, hbs⟩).2

/-- While a connection has the session locked for writing, it keeps that lock whatever others call
for; they change no row of any open table, and no table file but by creating a table over one that is
not open by the same path, which is then empty. -/
theorem writers_excluded (config : EngineConfig) (disk : Disk) (es : List Event) (o : ConnectionId) :
    let h := (start config disk).run es
    h.server.locks.holds? o .session = some .exclusive →
    (∀ q, h.server.caller? q ≠ some o →
      (h.perform q).server.locks.holds? o .session = some .exclusive ∧
      (∀ n f f', get? h.server.files n = some f → get? (h.perform q).server.files n = some f' →
        f' = f) ∧
      (∀ l bs, l.IsTable → h.disk.bytes? l = some bs →
        (∀ k : TablePath, k.place = l → ¬ h.Recreates q k) →
        (h.perform q).disk.bytes? l = some bs) ∧
      ∀ k, h.Recreates q k →
        get? h.server.registry k = none ∧
        (config.OnDirectory → (∀ e ∈ es, e.OnDirectory) → ¬ h.IsOpen k.place) ∧
        ∃ s : Schema,
          (h.perform q).disk.bytes? k.place = some (TableFile.encode (.ofSchema s.numbered))) ∧
    ∀ fs, Along next (ByOther o) h fs →
      (h.run fs).server.locks.holds? o .session = some .exclusive ∧
      (∀ n f f', get? h.server.files n = some f → get? (h.run fs).server.files n = some f' →
        f' = f) ∧
      ∀ l bs, l.IsTable → h.disk.bytes? l = some bs →
        Along next (Preserves l) h fs →
        (h.run fs).disk.bytes? l = some bs := by
  intro h held
  have locked : h.Locked o := ⟨registered_run config disk es, guarded_run config disk es, held⟩
  constructor
  · intro q other
    refine ⟨(locked.after (e := .call q) other).held, ?_, ?_, ?_⟩
    · intro n f f' hf hf'
      exact locked.image_eq other hf hf'
    · intro l bs hl hbs hq
      apply locked.bytes_eq other hl hbs
      rintro _ k ⟨⟩ hk
      exact hq k hk
    · intro k hq
      obtain ⟨closed, emptied⟩ := hq.emptied
      refine ⟨closed, fun directory hes => ?_, emptied⟩
      exact hq.not_isOpen locked.registered (rooted_throughout directory disk hes).last
  · intro fs others
    refine ⟨(locked.run others).held, ?_, ?_⟩
    · intro n f f' hf hf'
      exact locked.run_image others hf hf'
    · intro l bs hl hbs preserves
      exact locked.run_bytes others preserves hl hbs

def seven : List Event :=
  twoConnected ++ [.call (.createTable 1 address
      (.ofDecls [⟨"id", .uInteger, 4, 0, .none⟩] []) .normal),
    .call (.writeRow 4 none [.unsigned 7])]

def sevenShared : List Event :=
  seven ++ [.call (.openTable 2 address .normal), .call (.lock 1 .write)]

theorem sevenShared_kept :
    let h := (start {} .empty).run sevenShared
    h.server.locks.holds? 1 .session = some .exclusive ∧
      h.server.caller? (.writeRow 5 none [.unsigned 8]) ≠ some 1 ∧
      (h.perform (.writeRow 5 none [.unsigned 8])).server.locks.holds? 1 .session =
        some .exclusive ∧
      ∀ bs, h.disk.bytes? ["t.dat"] = some bs →
        (h.perform (.writeRow 5 none [.unsigned 8])).disk.bytes? ["t.dat"] = some bs := by
  have held : ((start {} .empty).run sevenShared).server.locks.holds? 1 .session =
      some .exclusive := by decide +kernel
  have other : ((start {} .empty).run sevenShared).server.caller?
      (.writeRow 5 none [.unsigned 8]) ≠ some 1 := by decide +kernel
  have kept := (writers_excluded {} .empty sevenShared 1 held).1 _ other
  refine ⟨held, other, kept.1, fun bs hbs => ?_⟩
  apply kept.2.2.1 ["t.dat"] bs (by decide) hbs
  rintro k - ⟨c, a, s, id, hq, -⟩
  cases hq

def sevenClosed : List Event :=
  seven ++ [.call (.closeTable 4), .call (.lock 1 .write)]

def recreation : Request := .createTable 2 address (.ofDecls [⟨"id", .uInteger, 4, 0, .none⟩] [])
  .overwrite

theorem not_all_writers_excluded :
    ¬ ∀ (config : EngineConfig) (disk : Disk) (es : List Event) o q l bs,
      let h := (start config disk).run es
      h.server.locks.holds? o .session = some .exclusive → h.server.caller? q ≠ some o →
      l.IsTable → h.disk.bytes? l = some bs → (h.perform q).disk.bytes? l = some bs := by
  intro always
  have held : ((start {} .empty).run sevenClosed).server.locks.holds? 1 .session =
      some .exclusive := by decide +kernel
  have hbytes : (((start {} .empty).run sevenClosed).disk.bytes? ["t.dat"]).map List.length =
      some 114 := by decide +kernel
  have hbytes' : ((((start {} .empty).run sevenClosed).perform recreation).disk.bytes?
      ["t.dat"]).map List.length = some 86 := by decide +kernel
  obtain ⟨bs, hbs, hlength⟩ := Option.map_eq_some_iff.1 hbytes
  have hkept := always {} .empty sevenClosed 1 recreation ["t.dat"] bs held (by decide) (by decide) hbs
  rw [hkept, Option.map_some, hlength] at hbytes'
  cases hbytes'

end Host
end Isam
