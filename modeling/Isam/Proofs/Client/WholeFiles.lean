import Isam.Proofs.Client.Buffers
import Isam.Proofs.Client.Definitions
import Isam.Proofs.Server.WholeFiles
namespace Isam

open FiniteMap

variable {h h' : Host} {s : Session Host} {t t' : Table} {r : Record} {i : Index}

theorem Host.Reaches.images {P : Event → Prop} {Q : Image → Prop} (reaches : h.Reaches P h')
    (next : ∀ {g : Host} (e : Event), g.server.Registered → g.Images Q → (g.next e).Images Q)
    (sane : h.Sane) (images : h.Images Q) : h'.Images Q := by
  have step (g : Host) (e : Event) (_ : P e) (kept : g.Sane ∧ g.Images Q) :
      (g.next e).Sane ∧ (g.next e).Images Q :=
    ⟨kept.1.next e, next e kept.1.registered kept.2⟩
  exact (reaches.keeps (R := fun g => g.Sane ∧ g.Images Q) step ⟨sane, images⟩).2

namespace Record

def Wide (r : Record) (t : Table) : Prop := r.values.length = t.fields.length

theorem wide_filling : Filling Image.FullRows Wide where
  of_values wide fields values := by
    rw [Wide, values, fields]
    exact wide
  initial values := by rw [Wide, values, Table.initialValues, List.length_map]
  put wide _ _ values := by
    rw [Wide, values, List.length_set]
    exact wide
  loaded full schema stored := by rw [Wide, full _ _ stored, schema, List.length_map]

theorem valuesAt_cases (r : Record) (gs : List Segment) :
    (∃ key, gs.mapM (fun g => r.valueAt g.number) = .ok key) ∨
    ∃ g ∈ gs, r.values.length ≤ g.number ∧ gs.mapM (fun g => r.valueAt g.number) =
      .error (.panic (.outsideBuffer g.number r.values.length)) := by
  induction gs with
  | nil => exact .inl ⟨[], rfl⟩
  | cons g gs ih =>
    rw [List.mapM_cons]
    rcases Nat.lt_or_ge g.number r.values.length with inside | outside
    · have hvalue := valueAt_eq_ok inside
      rcases ih with ⟨key, hkey⟩ | ⟨k, hk, houtside, hpanic⟩
      · exact .inl ⟨_, bind_eq_ok.2 ⟨_, hvalue, bind_eq_ok.2 ⟨key, hkey, rfl⟩⟩⟩
      · refine .inr ⟨k, List.mem_cons_of_mem _ hk, houtside, ?_⟩
        exact bind_eq_error.2 (.inr ⟨_, hvalue, bind_eq_error.2 (.inl hpanic)⟩)
    · refine .inr ⟨g, List.mem_cons_self, outside, bind_eq_error.2 (.inl ?_)⟩
      rw [valueAt, List.getElem?_eq_none outside]

theorem searchKey_cases (bound : r.checkBound t s = .ok ()) (active : r.activeIndex? t = some i) :
    (∃ key, r.searchKey t s = .ok key) ∨
    ∃ g ∈ i.segments, r.values.length ≤ g.number ∧
      r.searchKey t s = .error (.panic (.outsideBuffer g.number r.values.length)) := by
  have hkey : r.searchKey t s = i.segments.mapM fun g => r.valueAt g.number := by
    simp only [searchKey, bound, active]
    rfl
  rw [hkey]
  exact r.valuesAt_cases i.segments

theorem searchKey_eq_ok (wide : r.Wide t)
    (segments : ∀ i ∈ t.indexes, ∀ g ∈ i.segments, g.Of t.fields)
    (bound : r.checkBound t s = .ok ()) (active : r.activeIndex? t = some i) :
    ∃ key, r.searchKey t s = .ok key := by
  have hi : i ∈ t.indexes := by
    obtain ⟨n, -, hn⟩ := Option.bind_eq_some_iff.1 active
    exact List.mem_of_getElem? hn
  refine (searchKey_cases bound active).resolve_right ?_
  rintro ⟨g, hg, outside, -⟩
  obtain ⟨f, hf, -⟩ := segments i hi g hg
  rw [wide] at outside
  exact absurd (List.getElem?_eq_some_iff.1 hf).1 (Nat.not_lt.2 outside)

end Record

namespace Workspace

variable {w w' : Workspace Host}

theorem steps_of_attempt {a : Act} {xs ys : List Step} {result : Except Error Unit}
    (attempted : (w.steps xs).attempt a = some (result, w')) :
    w.steps (xs ++ .act a :: ys) = w'.steps ys := by
  have hnext : (w.steps xs).next a = w' := by rw [next, attempted]
  rw [steps_append, ← hnext]
  rfl

structure Filled (P : Image → Prop) (F : Record → Table → Prop) (w : Workspace Host) : Prop
    extends Standing w where
  valid : w.state.Images (·.schema.Valid)
  images : w.state.Images P
  buffered : w.Buffered F

section

variable {P : Image → Prop} {F : Record → Table → Prop} (filling : Record.Filling P F)
  (kept : ∀ {g : Host} (e : Event), g.server.Registered → g.Images P → (g.next e).Images P)

include filling kept

theorem Change.filled (change : w.Change w') (filled : w.Filled P F) : w'.Filled P F := by
  have standing := filled.toStanding
  have reaches := change.reaches standing
  have valid := reaches.images (fun e inv valid => valid.valid_next inv e) filled.sane filled.valid
  have images := reaches.images kept filled.sane filled.images
  refine ⟨change.standing standing, valid, images, ?_⟩
  exact change.buffered filling standing valid filled.images.image filled.buffered

theorem Filled.step (filled : w.Filled P F) (x : Step) : (w.step x).Filled P F := by
  cases x with
  | act a =>
    exact next_keeps (P := Filled P F) (fun change filled => change.filled filling kept filled) a filled
  | call q =>
    have registered := filled.sane.registered
    refine ⟨⟨filled.hosted, filled.sane.next (.call q)⟩, filled.valid.valid_next registered (.call q),
      kept (.call q) registered filled.images, ?_⟩
    exact filled.buffered.of_session (Host.carries_call registered q) rfl rfl fun ho _ => ho

theorem filled_steps (config : EngineConfig) {disk : Disk} (xs : List Step)
    (stored : ∀ l bs verify i, l.IsTable → disk.bytes? l = some bs →
      TableFile.decode bs verify = .ok i → P i) :
    ((start config disk).steps xs).Filled P F := by
  have start : (start config disk).Filled P F :=
    ⟨standing_start config disk, Host.images_valid config disk, Host.images_start config stored,
      buffered_start config disk⟩
  exact steps_keep (P := Filled P F) (Q := fun _ => True)
    (fun _ x _ filled => filled.step filling kept x) (fun _ _ => trivial) start

end

def Sound (w : Workspace Host) : Prop := w.Filled Image.FullRows Record.Wide

theorem whole_steps (config : EngineConfig) {disk : Disk} (xs : List Step)
    (full : ∀ l bs verify i, l.IsTable → disk.bytes? l = some bs →
      TableFile.decode bs verify = .ok i → i.FullRows) : ((start config disk).steps xs).Sound :=
  filled_steps Record.wide_filling (fun e inv full => full.fullRows_next inv e) config xs full

/-- On a disk whose table files are whole, no record ever looks or writes beside its buffer: neither
at a field, on whatever table, nor for the key of a search, on a table that was opened. And the files
stay whole, and a row that is put in takes the number of no other row and leaves all others as they
are. -/
theorem whole_files_safe (config : EngineConfig) (disk : Disk)
    (whole : ∀ l bs verify i, l.IsTable → disk.bytes? l = some bs →
      TableFile.decode bs verify = .ok i → i.Whole) :
    (∀ xs n r t s, ((start config disk).steps xs).record? n = some (r, t, s) →
      r.values.length = t.fields.length ∧
      ∀ selector f, r.checkBound t s = .ok () → t.select selector = .ok f →
        (∃ v, r.look t s selector = .ok (f, v)) ∧
        ∀ u v, f.accepted u = .ok v →
          r.set t s selector u = .ok { r with values := r.values.set f.number v }) ∧
    (∀ xs table title mode w o t, ((start config disk).steps xs).attempt
        (.table table (.openStored title mode)) = some (.ok (), w) →
      get? w.tables table = some (o, t) →
      ∀ ys n r s i, (w.steps ys).record? n = some (r, t, s) → r.checkBound t s = .ok () →
        r.activeIndex? t = some i → ∃ key, r.searchKey t s = .ok key) ∧
    ∀ es : List Event,
      let h := (Host.start config disk).run es
      (∀ l bs verify i, l.IsTable → h.disk.bytes? l = some bs → TableFile.decode bs verify = .ok i →
        i.Whole) ∧
      ∀ id row k, (h.writeRow id none row).1 = .ok k → ∃ i j, h.image? id = some i ∧
        (h.perform (.writeRow id none row)).image? id = some j ∧ i.rows.get? k = none ∧
        ∀ k', j.rows.get? k' = if k = k' then some row else i.rows.get? k' := by
  have sound (xs : List Step) : ((start config disk).steps xs).Sound :=
    whole_steps config xs fun l bs verify i hl hbs hd => (whole l bs verify i hl hbs hd).full
  refine ⟨?_, ?_, ?_⟩
  · intro xs n r t s found
    obtain ⟨m, hr, found⟩ := record?_eq_some.1 found
    obtain ⟨o, entry, -⟩ := table?_eq_some.1 found
    have wide := (sound xs).buffered.records hr entry
    have numbered := (sound xs).buffered.numbered entry
    refine ⟨wide, fun selector f bound selected => ⟨?_, ?_⟩⟩
    · obtain ⟨v, -, hlook⟩ := Record.look_eq_ok wide numbered bound selected
      exact ⟨v, hlook⟩
    · exact fun u v accepted => Record.set_eq_ok wide numbered bound selected accepted
  · intro xs table title mode w o t opened entry ys n r s i found bound active
    have before := sound xs
    have after : (w.steps ys).Sound := by
      rw [← steps_of_attempt opened]
      exact sound _
    have defined : t.Defined := by
      obtain ⟨-, opened⟩ := onFreeTable_eq_some opened
      obtain ⟨o', t₀, s₀, -, found₀, answer, rfl⟩ := onTable_eq_some opened
      cases (get?_set_self _ _ _).symm.trans entry
      exact Table.openStored_defined (before.hosted found₀) before.sane.registered before.valid
        (Prod.ext answer.symm rfl)
    obtain ⟨m, hr, found⟩ := record?_eq_some.1 found
    obtain ⟨p, entry, -⟩ := table?_eq_some.1 found
    have wide := after.buffered.records hr entry
    exact Record.searchKey_eq_ok wide defined.segments bound active
  · intro es h
    have whole := Host.whole_run config es whole
    exact ⟨whole.stored, fun id row k hk => whole.insertion hk⟩

def keyedImage : Image :=
  ⟨.ofDecls [⟨"id", .uInteger, 4, 0, .none⟩] [⟨"by", .fixed, false, false, [⟨"id", {}⟩]⟩],
    Rows.ofEntries [(1, [.unsigned 7])], 2⟩

def diskWith (i : Image) : Disk := { nodes := [(["t.dat"], .file (TableFile.encode i))] }

theorem diskWith_bytes {i : Image} {l : Location} {bs : List UInt8}
    (hbs : (diskWith i).bytes? l = some bs) : bs = TableFile.encode i := by
  unfold Disk.bytes? at hbs
  split at hbs
  · rename_i hnode
    cases hbs
    unfold Disk.node? at hnode
    split at hnode
    · cases hnode
    · have hmem := mem_of_get? hnode
      rw [diskWith, List.mem_singleton, Prod.mk.injEq, Node.file.injEq] at hmem
      exact hmem.2
  · cases hbs

theorem keyedImage_whole (l : Location) (bs : List UInt8) (verify : Bool) (i : Image)
    (hbs : (diskWith keyedImage).bytes? l = some bs) (hd : TableFile.decode bs verify = .ok i) :
    i.Whole := by
  rw [diskWith_bytes hbs] at hd
  rw [TableFile.decode_encode_eq_ok (by decide +kernel) hd]
  have rows (id : RowId) (row : Row) (hrow : keyedImage.rows.get? id = some row) :
      id = 1 ∧ row = [.unsigned 7] := by
    have hmem := Rows.mem_entries_iff.2 hrow
    rw [show keyedImage.rows.entries = [(1, [.unsigned 7])] from by decide +kernel] at hmem
    exact Prod.mk.inj (List.mem_singleton.1 hmem)
  constructor
  · intro id row hrow
    rw [(rows id row hrow).2]
    rfl
  · intro id row hrow
    rw [(rows id row hrow).1]
    decide

def opening : List Step := [.act (.newSession "s" {}),
  .act (.session "s" (.logon "FAIRCOMS" "" "")), .act (.newTable "t" "s")]

def reading : List Step := [.act (.newRecord "r" "t"), .act (.record "r" .first)]

def opens : List Event :=
  [.call (.connect "FAIRCOMS" ⟨"", ""⟩), .call (.openTable 1 Host.address .corrupt)]

theorem keyedImage_served : ∃ w r t s f v i key,
    ((start {} (diskWith keyedImage)).steps opening).attempt
      (.table "t" (.openStored "t" .corrupt)) = some (.ok (), w) ∧
    (w.steps reading).record? "r" = some (r, t, s) ∧ r.values = [.unsigned 7] ∧
    r.look t s (.number 0) = .ok (f, v) ∧
    r.activeIndex? t = some i ∧ r.searchKey t s = .ok key ∧
    ∃ i j, ((Host.start {} (diskWith keyedImage)).run opens).image? 3 = some i ∧
      (((Host.start {} (diskWith keyedImage)).run opens).perform
        (.writeRow 3 none [.unsigned 8])).image? 3 = some j ∧
      i.rows.get? 2 = none ∧ j.rows.get? 2 = some [.unsigned 8] ∧ j.rows.get? 1 = i.rows.get? 1 := by
  obtain ⟨looks, searches, inserts⟩ := whole_files_safe {} (diskWith keyedImage)
    fun l bs verify i _ hbs hd => keyedImage_whole l bs verify i hbs hd
  have hopened : (((start {} (diskWith keyedImage)).steps opening).attempt
      (.table "t" (.openStored "t" .corrupt))).map (fun p => (p.1.isOk,
        decide ((get? p.2.tables "t").map (·.2) =
          ((p.2.steps reading).record? "r").map (·.2.1)))) = some (true, true) := by
    decide +kernel
  have hread : (((start {} (diskWith keyedImage)).steps
      (opening ++ .act (.table "t" (.openStored "t" .corrupt)) :: reading)).record? "r").map
        (fun x => (x.1.values, (x.1.checkBound x.2.1 x.2.2).isOk, (x.2.1.select (.number 0)).isOk,
          (x.1.activeIndex? x.2.1).isSome)) = some ([.unsigned 7], true, true, true) := by
    decide +kernel
  have hinsert : (((Host.start {} (diskWith keyedImage)).run opens).writeRow 3 none
      [.unsigned 8]).1 = .ok 2 := by decide +kernel
  obtain ⟨⟨answer, w⟩, opened, hview⟩ := Option.map_eq_some_iff.1 hopened
  simp only [Prod.mk.injEq, decide_eq_true_eq] at hview
  obtain ⟨hanswer, hsame⟩ := hview
  obtain ⟨⟨⟩, rfl⟩ := exists_of_isOk hanswer
  obtain ⟨⟨r, t, s⟩, hrecord, hview⟩ := Option.map_eq_some_iff.1 hread
  simp only [Prod.mk.injEq] at hview
  obtain ⟨hvalues, hbound, hselect, hactive⟩ := hview
  obtain ⟨⟨⟩, bound⟩ := exists_of_isOk hbound
  obtain ⟨f, selected⟩ := exists_of_isOk hselect
  obtain ⟨i, active⟩ := Option.isSome_iff_exists.1 hactive
  have found : (w.steps reading).record? "r" = some (r, t, s) := by
    rw [← steps_of_attempt opened, hrecord]
  rw [found] at hsame
  obtain ⟨⟨o, u⟩, entry, rfl⟩ := Option.map_eq_some_iff.1 hsame
  obtain ⟨⟨v, hlook⟩, -⟩ := (looks _ "r" r u s hrecord).2 (.number 0) f bound selected
  obtain ⟨key, hkey⟩ := searches opening "t" "t" .corrupt w o u opened entry reading "r" r s i found
    bound active
  obtain ⟨-, inserted⟩ := inserts opens
  obtain ⟨i', j, hi, hj, free, rows⟩ := inserted 3 _ 2 hinsert
  exact ⟨w, r, u, s, f, v, i, key, opened, found, hvalues, hlook, active, hkey, i', j, hi, hj, free,
    rows 2, rows 1⟩

def strayImage : Image :=
  ⟨.ofDecls [⟨"id", .uInteger, 4, 0, .none⟩] [], Rows.ofEntries [(1, [])], 1⟩

theorem not_all_files_whole :
    (¬ ∀ bs verify i, TableFile.decode bs verify = .ok i → i.Whole) ∧
    (¬ ∀ config disk xs n r t s selector f,
      ((start config disk).steps xs).record? n = some (r, t, s) → r.checkBound t s = .ok () →
      t.select selector = .ok f → ∃ v, r.look t s selector = .ok (f, v)) ∧
    ¬ ∀ config disk es id row k i,
      (((Host.start config disk).run es).writeRow id none row).1 = .ok k →
      ((Host.start config disk).run es).image? id = some i → i.rows.get? k = none := by
  refine ⟨fun whole => ?_, fun looks => ?_, fun fresh => ?_⟩
  · have hdecode : TableFile.decode (TableFile.encode strayImage) true = .ok _ :=
      TableFile.decode_encode (by decide +kernel) (by decide +kernel) true
    have hrow : strayImage.rows.get? 1 = some [] := by decide +kernel
    exact absurd ((whole _ _ _ hdecode).below 1 _ hrow) (by decide)
  · have hrun : (((start {} (diskWith strayImage)).steps (opening ++
        .act (.table "t" (.openStored "t" .corrupt)) :: reading)).record? "r").map (fun x =>
          ((x.1.checkBound x.2.1 x.2.2).isOk, (x.2.1.select (.number 0)).isOk,
            (x.1.look x.2.1 x.2.2 (.number 0)).isOk)) = some (true, true, false) := by
      decide +kernel
    obtain ⟨⟨r, t, s⟩, found, hview⟩ := Option.map_eq_some_iff.1 hrun
    simp only [Prod.mk.injEq] at hview
    obtain ⟨hbound, hselect, hlook⟩ := hview
    obtain ⟨⟨⟩, bound⟩ := exists_of_isOk hbound
    obtain ⟨f, selected⟩ := exists_of_isOk hselect
    obtain ⟨v, looked⟩ := looks _ _ _ _ _ _ _ _ f found bound selected
    rw [looked] at hlook
    cases hlook
  · have hinsert : (((Host.start {} (diskWith strayImage)).run opens).writeRow 3 none
        [.unsigned 8]).1 = .ok 1 := by decide +kernel
    have hrow : (((Host.start {} (diskWith strayImage)).run opens).image? 3).map
        (·.rows.get? 1) = some (some []) := by decide +kernel
    obtain ⟨i, hi, hrow⟩ := Option.map_eq_some_iff.1 hrow
    rw [fresh _ _ _ _ _ _ i hinsert hi] at hrow
    cases hrow

end Workspace
end Isam
