import Isam.Proofs.Server.Locking
import Isam.Proofs.Server.Reopening
import Mathlib.Data.List.Induction
namespace Isam

open FiniteMap

variable {h h' : Host} {q : Request} {n : FileId} {f f' : OpenFile} {id : HandleId} {x : Handle}
  {k : RowId} {o : ConnectionId}

namespace Host

/-- What entitles a call to change one row of an open file: a handle that may write, no locks of
others on the session or the row, and nothing changed but that row. -/
structure Authorised (h : Host) (q : Request) (n : FileId) (f f' : OpenFile) (id : HandleId)
    (x : Handle) (k : RowId) : Prop where
  handle : get? h.server.handles id = some x
  live : x.connection ∈ h.server.connections
  file : x.file = n
  mode : x.mode ≠ .readOnly
  call : (∃ target row, q = .writeRow id target row ∧ (h.writeRow id target row).1 = .ok k ∧
      (target = none ∨ target = some k) ∧ f'.image.rows.get? k = some row) ∨
    (q = .deleteRow id k ∧ (h.deleteRow id k).1 = .ok () ∧
      f.image.rows.get? k ≠ none ∧ f'.image.rows.get? k = none)
  session : ∀ p, p ≠ x.connection → h.server.locks.holds? p .session = none
  row : ∀ p, p ≠ x.connection → h.server.locks.holds? p (.row n k) = none
  rest : ∀ j, j ≠ k → f'.image.rows.get? j = f.image.rows.get? j
  schema : f'.image.schema = f.image.schema
  others : ∀ m, m ≠ n → get? (h.perform q).server.files m = get? h.server.files m

end Host

/-- An insertion into a file under a number that another connection has locked. -/
def Server.Intrudes (s : Server) (q : Request) (n : FileId) : Prop :=
  ∃ id row x f p, q = .writeRow id none row ∧ get? s.handles id = some x ∧ x.file = n ∧
    get? s.files n = some f ∧ p ≠ x.connection ∧ s.locks.holds? p (.row n f.image.nextRow) ≠ none

theorem Effect.at_file (e : Effect h q h') (inv : h.server.Registered)
    (hf : get? h.server.files n = some f) (hf' : get? h'.server.files n = some f') :
    f' = f ∨
    (∃ id target row x, q = .writeRow id target row ∧ x.file = n ∧
      h.server.WriteAllowed id target row x f ∧
      (h.writeRow id target row).1 = .ok (f.image.store target row).1 ∧
      f'.image = (f.image.store target row).2 ∧
      ∀ m, m ≠ n → get? h'.server.files m = get? h.server.files m) ∨
    ∃ id k row x, q = .deleteRow id k ∧ x.file = n ∧ h.server.DeleteAllowed id k x f row ∧
      (h.deleteRow id k).1 = .ok () ∧ f'.image = f.image.remove k ∧
      ∀ m, m ≠ n → get? h'.server.files m = get? h.server.files m := by
  have same (hg : get? h.server.files n = some f') : f' = f := by
    rw [hf] at hg
    exact (Option.some.inj hg).symm
  have hlt := inv.file_lt hf
  cases e with
  | unchanged | connected | joined | locked | unlocked | rowLocked | rowUnlocked =>
    exact .inl (same hf')
  | disconnected => exact .inl (same (inv.get?_files_of_disconnect hf'))
  | closed id => exact .inl (same (Server.get?_files_of_close hf'))
  | created | loaded =>
    rw [Server.get?_files_registerNew, if_neg (Nat.ne_of_gt hlt)] at hf'
    exact .inl (same hf')
  | @wrote id target row x g d allowed answer saved =>
    rcases Server.get?_files_of_setImage hf' with ⟨rfl, rfl⟩ | hf'
    · have hg := allowed.file
      rw [hf] at hg
      cases hg
      refine .inr (.inl ⟨id, target, row, x, rfl, rfl, allowed, answer, rfl, fun m hm => ?_⟩)
      rw [Server.get?_files_setImage, if_neg hm.symm]
    · exact .inl (same hf')
  | @deleted id j x g row d allowed answer saved =>
    rcases Server.get?_files_of_setImage hf' with ⟨rfl, rfl⟩ | hf'
    · have hg := allowed.file
      rw [hf] at hg
      cases hg
      refine .inr (.inr ⟨id, j, row, x, rfl, rfl, allowed, answer, rfl, fun m hm => ?_⟩)
      rw [Server.get?_files_setImage, if_neg hm.symm]
    · exact .inl (same hf')

namespace Host

theorem authorised_of_changed (inv : h.server.Registered) (hf : get? h.server.files n = some f)
    (hf' : get? (h.perform q).server.files n = some f') (changed : f'.image.rows ≠ f.image.rows)
    (hq : ¬ h.server.Intrudes q n) : ∃ id x k, h.Authorised q n f f' id x k := by
  rcases (h.perform_effect q).at_file inv hf hf' with rfl |
    ⟨id, target, row, x, rfl, hx, allowed, answer, himage, others⟩ |
    ⟨id, k, row, x, rfl, hx, allowed, answer, himage, others⟩
  · exact absurd rfl changed
  · have hrow : ∀ p, p ≠ x.connection →
        h.server.locks.holds? p (.row n (f.image.store target row).1) = none := by
      cases target with
      | some j =>
        have hfree := allowed.target_free j rfl
        rw [hx] at hfree
        exact LockTable.conflictingHolder?_exclusive_eq_none.1 hfree
      | none =>
        intro p hp
        by_contra hheld
        exact hq ⟨id, row, x, f, p, rfl, allowed.handle, hx, hf, hp, hheld⟩
    refine ⟨id, x, (f.image.store target row).1, ?_⟩
    refine ⟨allowed.handle, inv.live allowed.handle, hx, allowed.mode, ?_, ?_, hrow, ?_, ?_, others⟩
    · refine .inl ⟨target, row, rfl, answer, ?_, ?_⟩
      · cases target
        · exact .inl rfl
        · exact .inr rfl
      · rw [himage, Image.get?_store_self]
    · exact LockTable.conflictingHolder?_exclusive_eq_none.1 allowed.session
    · intro j hj
      rw [himage, Image.get?_store_ne hj]
    · rw [himage, Image.store_schema]
  · have hfree := allowed.free
    rw [hx] at hfree
    refine ⟨id, x, k, ?_⟩
    refine ⟨allowed.handle, inv.live allowed.handle, hx, allowed.mode, ?_, ?_, ?_, ?_, ?_, others⟩
    · refine .inr ⟨rfl, answer, ?_, ?_⟩
      · rw [allowed.stored]
        exact Option.some_ne_none row
      · rw [himage, Image.get?_remove_self]
    · exact LockTable.conflictingHolder?_exclusive_eq_none.1 allowed.session
    · exact LockTable.conflictingHolder?_exclusive_eq_none.1 hfree
    · intro j hj
      rw [himage, Image.get?_remove_ne hj]
    · rw [himage]
      rfl

theorem not_authorised_of_intrudes (inv : h.server.Registered)
    (hf : get? h.server.files n = some f)
    (hf' : get? (h.perform q).server.files n = some f') (changed : f'.image.rows ≠ f.image.rows)
    (hq : h.server.Intrudes q n) : ¬ ∃ id x k, h.Authorised q n f f' id x k := by
  rintro ⟨id, x, k, ha⟩
  obtain ⟨id', row, x', g, p, rfl, hx', -, hg, hp, hheld⟩ := hq
  rw [hf] at hg
  cases hg
  rcases ha.call with ⟨target, row', hcall, hanswer, -⟩ | ⟨hcall, -⟩
  · cases hcall
    rcases (h.perform_effect _).at_file inv hf hf' with rfl |
      ⟨id, target, row, y, hcall, -, -, answer, -⟩ | ⟨id, k, row, y, hcall, -⟩
    · exact changed rfl
    · -- the row that was written has the number that was locked
      cases hcall
      rw [answer] at hanswer
      cases hanswer
      have hx := ha.handle
      rw [hx'] at hx
      cases hx
      exact hheld (ha.row p hp)
    · cases hcall
  · cases hcall

end Host

theorem Effect.keeps_handle (e : Effect h q h') (inv : h.server.Registered)
    (hx : get? h.server.handles id = some x) (hq : h.server.caller? q ≠ some x.connection) :
    get? h'.server.handles id = some x := by
  cases e with
  | unchanged | connected | wrote | deleted | locked | unlocked | rowLocked | rowUnlocked => exact hx
  | disconnected c =>
    by_cases hc : c ∈ h.server.connections
    · refine ((inv.toConsistent.left_disconnect hc).handles id x).2 ⟨hx, fun heq => hq ?_⟩
      rw [heq]
      rfl
    · rwa [Server.disconnect_of_not_mem hc]
  | created | loaded => exact inv.toNumbered.withFile.get?_handles_register hx
  | joined => exact inv.toNumbered.get?_handles_register hx
  | closed id' =>
    rw [Server.get?_handles_close, if_neg]
    · exact hx
    · rintro rfl
      apply hq
      rw [Server.caller?, hx]
      rfl

namespace Host

theorem locked_row_kept (inv : h.server.Registered) (guarded : h.server.Guarded)
    (held : h.server.locks.holds? o (.row n k) ≠ none) (other : h.server.caller? q ≠ some o)
    (hq : ¬ h.server.Intrudes q n) :
    ∃ f f', get? h.server.files n = some f ∧ get? (h.perform q).server.files n = some f' ∧
      f'.image.rows.get? k = f.image.rows.get? k := by
  have inv' := (h.perform_effect q).registered inv
  obtain ⟨j, hj⟩ := LockTable.holds?_isSome.1 (Option.isSome_iff_ne_none.2 held)
  obtain ⟨id, x, hx, rfl, rfl⟩ := guarded.opened hj
  obtain ⟨f, -, hf, -⟩ := inv.handle hx
  obtain ⟨f', -, hf', -⟩ := inv'.handle ((h.perform_effect q).keeps_handle inv hx other)
  refine ⟨f, f', hf, hf', ?_⟩
  rcases (h.perform_effect q).at_file inv hf hf' with rfl |
    ⟨id', target, row, y, rfl, hy, allowed, -, himage, -⟩ |
    ⟨id', i, row, y, rfl, hy, allowed, -, himage, -⟩
  · rfl
  · have hne : x.connection ≠ y.connection := by
      intro heq
      apply other
      rw [Server.caller?, allowed.handle, heq]
      rfl
    rw [himage]
    apply Image.get?_store_ne
    intro hk
    cases target with
    | none =>
      have hk : k = f.image.nextRow := hk
      rw [hk] at held
      exact hq ⟨id', row, y, f, x.connection, rfl, allowed.handle, hy, hf, hne, held⟩
    | some i =>
      have hk : k = i := hk
      have hfree := allowed.target_free i rfl
      rw [hy, ← hk] at hfree
      exact held (LockTable.conflictingHolder?_exclusive_eq_none.1 hfree _ hne)
  · have hne : x.connection ≠ y.connection := by
      intro heq
      apply other
      rw [Server.caller?, allowed.handle, heq]
      rfl
    rw [himage]
    apply Image.get?_remove_ne
    rintro rfl
    have hfree := allowed.free
    rw [hy] at hfree
    exact held (LockTable.conflictingHolder?_exclusive_eq_none.1 hfree _ hne)

end Host

def Server.LocksBelow (s : Server) (l : Location) : Prop :=
  ∀ p j n k f, (p, j) ∈ s.locks.holdersOf (.row n k) → get? s.files n = some f → f.location = l →
    k.toNat < f.image.nextRow.toNat

theorem Image.le_nextRow_store {i : Image} {target : Option RowId} {row : Row}
    (room : target = none → i.nextRow.toNat + 1 < UInt64.size) :
    i.nextRow.toNat ≤ (i.store target row).2.nextRow.toNat := by
  cases target with
  | some id => exact Nat.le_refl _
  | none => exact nextRow_store row (room rfl) ▸ Nat.le_succ _

theorem Effect.locksBelow {l : Location} (e : Effect h q h') (inv : h.server.Registered)
    (guarded : h.server.Guarded)
    (made : ∀ n f, get? h.server.files n = some f → f.location = l → f.image.Made)
    (below : h.server.LocksBelow l) : h'.server.LocksBelow l := by
  intro p j n k f hlock hf hl
  cases e with
  | unchanged | connected | joined => exact below p j n k f hlock hf hl
  | disconnected c =>
    have hlock := Server.mem_locks_of_disconnect hlock
    exact below p j n k f hlock (inv.get?_files_of_disconnect hf) hl
  | closed id =>
    exact below p j n k f (Server.mem_locks_of_close hlock) (Server.get?_files_of_close hf) hl
  | created | loaded =>
    -- nobody holds a row of a file that is only now opened
    obtain ⟨id, x, hx, -, rfl⟩ := guarded.opened hlock
    obtain ⟨g, -, hg, -⟩ := inv.handle hx
    rw [Server.get?_files_registerNew, if_neg (Nat.ne_of_gt (inv.file_lt hg))] at hf
    exact below p j x.file k f hlock hf hl
  | @wrote id target row x g d allowed answer saved =>
    rcases Server.get?_files_of_setImage hf with ⟨rfl, rfl⟩ | hf
    · have hbelow := below p j _ k g hlock allowed.file hl
      exact Nat.lt_of_lt_of_le hbelow (Image.le_nextRow_store allowed.room)
    · exact below p j n k f hlock hf hl
  | @deleted id r x g row d allowed answer saved =>
    rcases Server.get?_files_of_setImage hf with ⟨rfl, rfl⟩ | hf
    · exact below p j _ k g hlock allowed.file hl
    · exact below p j n k f hlock hf hl
  | locked =>
    have hne : LockResource.session ≠ .row n k := by
      intro heq
      cases heq
    rw [LockTable.holdersOf_grant, if_neg hne] at hlock
    exact below p j n k f hlock hf hl
  | unlocked => exact below p j n k f (LockTable.mem_of_releaseAll hlock) hf hl
  | rowUnlocked => exact below p j n k f (LockTable.mem_of_release hlock) hf hl
  | @rowLocked id r mode x g kind handle file hkind stored free =>
    rw [LockTable.holdersOf_grant] at hlock
    split at hlock
    · rename_i hr
      rcases List.mem_append.1 hlock with hlock | hlock
      · exact below p j n k f (LockTable.mem_without.1 hlock).1 hf hl
      · -- a row that is locked is there
        cases hr
        have hg : g = f := Option.some.inj (file.symm.trans hf)
        obtain ⟨row, hrow⟩ := Option.isSome_iff_exists.1 (hg ▸ stored)
        exact ((made _ f hf hl).numbers k row hrow).2
    · exact below p j n k f hlock hf hl

namespace Host

theorem locksBelow_run (config : EngineConfig) {disk : Disk} (empty : ∀ l, disk.bytes? l = none)
    (es : List Event) (l : Location) : ((start config disk).run es).server.LocksBelow l := by
  induction es using List.reverseRecOn with
  | nil => exact fun p j n k f hlock => nomatch hlock
  | append_singleton es e ih =>
    rw [run_concat]
    cases e with
    | device => exact ih
    | restart => exact fun p j n k f hlock => nomatch hlock
    | call q =>
      exact (perform_effect _ q).locksBelow (registered_run config disk es)
        (guarded_run config disk es) (fun _ _ hf _ => made_of_open config empty es hf) ih

/-- Every change to the rows of an open file is authorised, but for an insertion under a number that
another connection has locked; and a locked row is left alone by all others, but for such an
insertion. There is none as long as the calls alone change the table files. -/
theorem changes_authorised (config : EngineConfig) (disk : Disk) (es : List Event) :
    let h := (start config disk).run es
    (∀ q n f f', get? h.server.files n = some f → get? (h.perform q).server.files n = some f' →
      f'.image.rows ≠ f.image.rows →
      ((∃ id x k, h.Authorised q n f f' id x k) ↔ ¬ h.server.Intrudes q n)) ∧
    (∀ q n k o, h.server.locks.holds? o (.row n k) ≠ none → h.server.caller? q ≠ some o →
      ¬ h.server.Intrudes q n →
      ∃ f f', get? h.server.files n = some f ∧ get? (h.perform q).server.files n = some f' ∧
        f'.image.rows.get? k = f.image.rows.get? k) ∧
    ((∀ l, disk.bytes? l = none) → ∀ q n, ¬ h.server.Intrudes q n) := by
  intro h
  have inv : h.server.Registered := registered_run config disk es
  have guarded : h.server.Guarded := guarded_run config disk es
  refine ⟨?_, ?_, ?_⟩
  · intro q n f f' hf hf' changed
    constructor
    · intro ha hq
      exact not_authorised_of_intrudes inv hf hf' changed hq ha
    · exact authorised_of_changed inv hf hf' changed
  · intro q n k o held other hq
    exact locked_row_kept inv guarded held other hq
  · intro empty q n hq
    obtain ⟨id, row, x, f, p, -, -, -, hf, -, held⟩ := hq
    obtain ⟨j, hj⟩ := LockTable.holds?_isSome.1 (Option.isSome_iff_ne_none.2 held)
    exact Nat.lt_irrefl _ (locksBelow_run config empty es f.location p j n _ f hj hf rfl)

def dueImage : Image :=
  ⟨.ofDecls [⟨"id", .uInteger, 4, 0, .none⟩] [], Rows.ofEntries [(1, [.unsigned 7])], 1⟩

def dueDisk : Disk := { nodes := [(["t.dat"], .file (TableFile.encode dueImage))] }

def address : TableAddress := ⟨⟨""⟩, "t"⟩

def twoConnected : List Event :=
  [.call (.connect "FAIRCOMS" ⟨"", ""⟩), .call (.connect "FAIRCOMS" ⟨"", ""⟩)]

def thenLocked : List Event :=
  [.call (.openTable 2 address .normal), .call (.lockRow 4 1 .write)]

def lockedFirst : List Event :=
  twoConnected ++ .call (.openTable 1 address .normal) :: thenLocked

def dueHost : Host :=
  let h := (start {} dueDisk).run twoConnected
  { h with server := (h.server.registerNew 1 ⟨true, ["t.dat"]⟩
      { dueImage with schema := dueImage.schema.numbered } .normal).2 }

theorem run_lockedFirst : (start {} dueDisk).run lockedFirst = dueHost.run thenLocked := by
  have hdecode (verify : Bool) : TableFile.decode (TableFile.encode dueImage) verify =
      .ok { dueImage with schema := dueImage.schema.numbered } :=
    TableFile.decode_encode (by decide +kernel) (by decide +kernel) verify
  have hconnected : 1 ∈ ((start {} dueDisk).run twoConnected).server.connections := by
    decide +kernel
  have hkey : dueDisk.key? ((Server.start {}).path address) = some ⟨true, ["t.dat"]⟩ := by
    decide +kernel
  have hregistry : get? ((start {} dueDisk).run twoConnected).server.registry
      ⟨true, ["t.dat"]⟩ = none := by decide +kernel
  have hbytes : dueDisk.bytes? ["t.dat"] = some (TableFile.encode dueImage) := by
    simp [dueDisk, Disk.bytes?, Disk.node?, get?]
  have hopen := openTable_eq_ok (m := .normal) hconnected hkey hregistry hbytes hdecode
  rw [lockedFirst, run_append, run_cons, next_openTable, hopen]
  rfl

theorem not_all_changes_authorised :
    ¬ ∀ (config : EngineConfig) (disk : Disk) (es : List Event) q n f f',
      get? ((start config disk).run es).server.files n = some f →
      get? (((start config disk).run es).perform q).server.files n = some f' →
      f'.image.rows ≠ f.image.rows →
      ∃ id x k, ((start config disk).run es).Authorised q n f f' id x k := by
  intro claim
  have hclaim := claim {} dueDisk lockedFirst (.writeRow 5 none [.unsigned 8]) 3
  have inv := registered_run {} dueDisk lockedFirst
  rw [run_lockedFirst] at hclaim inv
  have hrows : (get? (dueHost.run thenLocked).server.files 3).map (·.image.rows.entries) =
      some [(1, [.unsigned 7])] := by decide +kernel
  have hrows' : (get? ((dueHost.run thenLocked).perform
      (.writeRow 5 none [.unsigned 8])).server.files 3).map (·.image.rows.entries) =
      some [(1, [.unsigned 8])] := by decide +kernel
  have hnext : (get? (dueHost.run thenLocked).server.files 3).map (·.image.nextRow) =
      some 1 := by decide +kernel
  have hhandle : get? (dueHost.run thenLocked).server.handles 5 =
      some ⟨2, 3, .normal⟩ := by decide +kernel
  have hlock : (dueHost.run thenLocked).server.locks.holds? 1 (.row 3 1) =
      some .exclusive := by decide +kernel
  obtain ⟨f, hf, hfrows⟩ := Option.map_eq_some_iff.1 hrows
  obtain ⟨f', hf', hfrows'⟩ := Option.map_eq_some_iff.1 hrows'
  have changed : f'.image.rows ≠ f.image.rows := by
    intro heq
    rw [heq, hfrows] at hfrows'
    cases hfrows'
  have hfnext : f.image.nextRow = 1 := by
    rw [hf] at hnext
    exact Option.some.inj hnext
  refine not_authorised_of_intrudes inv hf hf' changed ?_ (hclaim f f' hf hf' changed)
  refine ⟨5, [.unsigned 8], ⟨2, 3, .normal⟩, f, 1, rfl, hhandle, rfl, hf, by decide, ?_⟩
  rw [hfnext, hlock]
  exact Option.some_ne_none _

end Host
end Isam
