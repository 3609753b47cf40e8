import Isam.Proofs.Server.Places
namespace Isam

open FiniteMap

variable {h : Host} {id : HandleId} {target : Option RowId} {row : Row} {x : Handle} {f : OpenFile}

namespace Server

variable {s : Server}

theorem checkWrite_of_others (ho : s.opened id = .ok (x, f)) (hw : s.checkWritable x f = .ok ())
    (hc : f.image.schema.checkRow row = .ok ()) (ht : s.checkTarget x f target = .ok ()) :
    s.checkWrite id target row =
      match f.image.duplicate? row target with
      | some (index, clash) => .error (.duplicateKey index clash)
      | none => (checkRoom f.image target).map fun _ => (x, f) := by
  simp only [checkWrite, ho, hw, hc, ht, checkUnique, bind, Except.bind]
  cases f.image.duplicate? row target with
  | some => rfl
  | none => cases checkRoom f.image target <;> rfl

theorem checkRoom_cases (i : Image) (target : Option RowId) : checkRoom i target = .ok () ∨
    (target = none ∧ i.nextRow.toNat + 1 = UInt64.size ∧
      checkRoom i target = .error (.panic .rowNumbers)) := by
  cases target with
  | some => exact .inl rfl
  | none =>
    by_cases room : i.nextRow.toNat + 1 < UInt64.size
    · exact .inl (if_pos room)
    · have hlt := i.nextRow.toNat_lt_size
      exact .inr ⟨rfl, by omega, if_neg room⟩

end Server

namespace Host

theorem writeRow_of_checked (hc : h.server.checkWrite id target row = .ok (x, f)) :
    (h.writeRow id target row).1 =
      if (h.disk.replace f.location (TableFile.encode (f.image.store target row).2)).1 then
        .ok (f.image.store target row).1
      else .error .diskFailure := by
  simp only [writeRow, hc, rewrite]
  generalize h.disk.replace f.location (TableFile.encode (f.image.store target row).2) = written
  obtain ⟨written, d⟩ := written
  cases written <;> rfl

theorem writeRow_of_refused {e : Error} (hc : h.server.checkWrite id target row = .error e) :
    (h.writeRow id target row).1 = .error e := by
  simp only [writeRow, hc]

theorem writeRow_of_others (ho : h.server.opened id = .ok (x, f))
    (hw : h.server.checkWritable x f = .ok ()) (hc : f.image.schema.checkRow row = .ok ())
    (ht : h.server.checkTarget x f target = .ok ()) :
    match f.image.duplicate? row target with
    | some (index, clash) => (h.writeRow id target row).1 = .error (.duplicateKey index clash)
    | none =>
      (h.writeRow id target row).1 = .ok (f.image.store target row).1 ∨
      (h.writeRow id target row).1 = .error .diskFailure ∨
      (target = none ∧ f.image.nextRow.toNat + 1 = UInt64.size ∧
        (h.writeRow id target row).1 = .error (.panic .rowNumbers)) := by
  have hchecked := Server.checkWrite_of_others ho hw hc ht
  cases hd : f.image.duplicate? row target with
  | some clash =>
    rw [hd] at hchecked
    exact writeRow_of_refused hchecked
  | none =>
    rw [hd] at hchecked
    simp only at hchecked ⊢
    rcases Server.checkRoom_cases f.image target with hroom | ⟨hnone, hfull, hroom⟩
    · rw [hroom] at hchecked
      rw [writeRow_of_checked hchecked]
      split
      · exact .inl rfl
      · exact .inr (.inl rfl)
    · rw [hroom] at hchecked
      exact .inr (.inr ⟨hnone, hfull, writeRow_of_refused hchecked⟩)

theorem refused_iff_duplicate (ho : h.server.opened id = .ok (x, f))
    (hw : h.server.checkWritable x f = .ok ()) (hc : f.image.schema.checkRow row = .ok ())
    (ht : h.server.checkTarget x f target = .ok ()) :
    (∃ e, (h.writeRow id target row).1 = .error e ∧ e.kind = .constraintViolation) ↔
      f.image.duplicate? row target ≠ none := by
  have hanswer := writeRow_of_others ho hw hc ht
  cases hd : f.image.duplicate? row target with
  | some clash =>
    rw [hd] at hanswer
    exact ⟨fun _ => Option.some_ne_none _, fun _ => ⟨_, hanswer, rfl⟩⟩
  | none =>
    rw [hd] at hanswer
    refine ⟨?_, fun hne => absurd rfl hne⟩
    rintro ⟨e, he, hkind⟩
    rw [he] at hanswer
    rcases hanswer with hok | hfailed | ⟨-, -, hpanic⟩
    · cases hok
    · cases hfailed
      cases hkind
    · cases hpanic
      cases hkind

variable {h' : Host} {l : Location} {i : Image} {c : ConnectionId} {a : TableAddress} {s : Schema}
  {m : CreateMode}

theorem createTable_saves (created : h.createTable c a s m = (.ok id, h')) :
    ∃ k, h'.server.path a = h.server.path a ∧ h'.disk.key? (h.server.path a) = some k ∧
      get? h.server.registry k = none ∧ h.Saves h' k.place (.ofSchema s.numbered) ∧
      (Image.ofSchema s.numbered).Made := by
  obtain ⟨k, d, rfl, rfl, valid, known, free, saved⟩ := Effect.createTable_made created
  exact ⟨k, rfl, known, free, saves_registerNew saved, .created valid⟩

theorem refused_iff_not_unique (unique : f.image.KeysUnique)
    (ho : h.server.opened id = .ok (x, f))
    (hw : h.server.checkWritable x f = .ok ()) (hc : f.image.schema.checkRow row = .ok ())
    (ht : h.server.checkTarget x f target = .ok ()) :
    ((∃ e, (h.writeRow id target row).1 = .error e ∧ e.kind = .constraintViolation) ↔
      ¬ (f.image.rowsWith target row).Pairwise f.image.schema.Admits) ∧
    ((f.image.rowsWith target row).Pairwise f.image.schema.Admits →
      (h.writeRow id target row).1 = .ok (f.image.store target row).1 ∨
      (h.writeRow id target row).1 = .error .diskFailure ∨
      (target = none ∧ f.image.nextRow.toNat + 1 = UInt64.size ∧
        (h.writeRow id target row).1 = .error (.panic .rowNumbers))) := by
  rw [refused_iff_duplicate ho hw hc ht, unique.pairwise_rowsWith]
  refine ⟨Iff.rfl, fun hd => ?_⟩
  have hanswer := writeRow_of_others ho hw hc ht
  rw [hd] at hanswer
  exact hanswer

/-- In every state that any calls lead to after a table was created, open or closed, its rows have
keys that its unique indexes can tell apart, but for keys of nulls where they are allowed. A write
that passes every other check is refused as a violation exactly where the rows with it would not,
and is otherwise answered by the disk, or panics at the last row number. -/
theorem keys_stay_unique (config : EngineConfig) (disk : Disk) (es : List Event)
    (created : ((start config disk).run es).createTable c a s m = (.ok id, h)) :
    ∃ l, h.disk.place? (h.server.path a) = some l ∧
      (config.OnDirectory → (∀ e ∈ es, e.OnDirectory) → ¬ ((start config disk).run es).IsOpen l) ∧
      (disk.bytes? l = none ∨ ¬ ((start config disk).run es).IsOpen l → ∀ fs,
        (∃ i, (h.run fs).disk.bytes? l = some (TableFile.encode i) ∧ i.KeysUnique) ∧
        ∀ k x f, (h.run fs).server.opened k = .ok (x, f) → f.location = l →
          f.image.KeysUnique ∧
          ∀ target row, (h.run fs).server.checkWritable x f = .ok () →
            f.image.schema.checkRow row = .ok () → (h.run fs).server.checkTarget x f target = .ok () →
            ((∃ e, ((h.run fs).writeRow k target row).1 = .error e ∧
                e.kind = .constraintViolation) ↔
              ¬ (f.image.rowsWith target row).Pairwise f.image.schema.Admits) ∧
            ((f.image.rowsWith target row).Pairwise f.image.schema.Admits →
              ((h.run fs).writeRow k target row).1 = .ok (f.image.store target row).1 ∨
              ((h.run fs).writeRow k target row).1 = .error .diskFailure ∨
              (target = none ∧ f.image.nextRow.toNat + 1 = UInt64.size ∧
                ((h.run fs).writeRow k target row).1 = .error (.panic .rowNumbers))) ∧
            ((f.image.rowsWith target row).Pairwise f.image.schema.Admits ↔
              (f.image.store target row).2.KeysUnique)) := by
  have before : ((start config disk).run es).server.Registered := registered_run config disk es
  have inv := createTable_registered before created
  obtain ⟨k, hpath, known, free, saves, made⟩ := createTable_saves created
  have hl : k.place.IsTable := Disk.isTable_of_key? rfl known
  refine ⟨k.place, hpath ▸ (Disk.key?_eq_some.1 known).1, fun directory hes => ?_, fun once fs => ?_⟩
  · have rooted := (rooted_throughout directory disk hes).last
    exact rooted.not_isOpen before.toConsistent (rooted.path_absolute known) free
  · -- what another path has open there was made by calls, or there is no other path
    have old : ∀ n f, get? ((start config disk).run es).server.files n = some f →
        f.location = k.place → f.image.Made := by
      intro n f hf hfl
      rcases once with hnone | hclosed
      · have start := madeAt_start config hnone
        exact (start.run (Server.registered_start config) hl es).image n f hf hfl
      · exact absurd ⟨n, f, hf, hfl⟩ hclosed
    have H := (MadeAt.saves old saves made).run inv hl fs
    constructor
    · have hstored : (h.disk.bytes? k.place).isSome = true := by rw [saves.bytes, Option.isSome_some]
      obtain ⟨bs, hbs⟩ := Option.isSome_iff_exists.1 (stored_run inv hl hstored fs)
      obtain ⟨i, made, rfl, -⟩ := H.bytes bs hbs
      exact ⟨i, hbs, made.keysUnique⟩
    · intro id x f ho hfl
      have made := H.image _ f (Server.opened_eq_ok.1 ho).2 hfl
      have unique := made.keysUnique
      refine ⟨unique, fun target row hw hc ht => ?_⟩
      obtain ⟨hrefused, hstored⟩ := refused_iff_not_unique unique ho hw hc ht
      refine ⟨hrefused, hstored, ?_⟩
      rw [unique.pairwise_rowsWith, unique.store_iff fun _ => made.next_free]

def numbers : Schema :=
  .ofDecls [⟨"id", .uInteger, 4, 0, .none⟩]
    [⟨"by_id", .fixed, false, true, [⟨"id", ⟨false, false⟩⟩]⟩]

theorem numbers_stay_unique : ∃ h,
    ((start {} .empty).run [.call (.connect "FAIRCOMS" ⟨"", ""⟩)]).createTable 1 ⟨⟨""⟩, "t"⟩
      numbers .normal = (.ok 3, h) ∧
    ∃ l, ∀ fs, ∃ i, (h.run fs).disk.bytes? l = some (TableFile.encode i) ∧ i.KeysUnique := by
  have hid : (((start {} .empty).run [.call (.connect "FAIRCOMS" ⟨"", ""⟩)]).createTable 1
      ⟨⟨""⟩, "t"⟩ numbers .normal).1 = .ok 3 := by decide +kernel
  generalize hmade : ((start {} .empty).run [.call (.connect "FAIRCOMS" ⟨"", ""⟩)]).createTable 1
    ⟨⟨""⟩, "t"⟩ numbers .normal = made at hid
  obtain ⟨answer, h⟩ := made
  cases hid
  obtain ⟨l, -, -, hrun⟩ := keys_stay_unique {} .empty [.call (.connect "FAIRCOMS" ⟨"", ""⟩)] hmade
  have hempty : Disk.empty.bytes? l = none := by cases l <;> rfl
  exact ⟨h, rfl, l, fun fs => (hrun (.inl hempty) fs).1⟩

end Host
end Isam
