import Isam.Proofs.Client.Settled
namespace Isam

open FiniteMap

variable {w : Workspace Host} {n o : String} {t : Table} {s : Session Host} {r : Record}
  {i : Index} {sc : Schema} {key : Key} {row : Row}

namespace Record

theorem valuesAt_eq {gs : List Segment} (hkey : gs.mapM (fun g => r.valueAt g.number) = .ok key) :
    key = gs.map fun g => (r.values[g.number]?).getD .null := by
  induction gs generalizing key with
  | nil =>
    cases hkey
    rfl
  | cons g gs ih =>
    rw [List.mapM_cons] at hkey
    obtain ⟨v, hv, hkey⟩ := bind_eq_ok.1 hkey
    obtain ⟨vs, hvs, ⟨⟩⟩ := bind_eq_ok.1 hkey
    unfold valueAt at hv
    split at hv
    · rename_i found
      cases hv
      rw [List.map_cons, ih hvs, found]
      rfl
    · cases hv

theorem searchKey_eq (active : r.activeIndex? t = some i) (hkey : r.searchKey t s = .ok key) :
    key = i.segments.map fun g => (r.values[g.number]?).getD .null := by
  obtain ⟨⟨⟩, -, hkey⟩ := bind_eq_ok.1 hkey
  simp only [active] at hkey
  exact valuesAt_eq hkey

end Record

theorem Table.keyOf_eq (of : ∀ g ∈ i.segments, g.Of t.fields) (valid : sc.Valid)
    (fields : sc.fields = t.fields.map (·.toDecl)) :
    Image.keyOf sc i.toDecl row = i.segments.map fun g => (row[g.number]?).getD .null := by
  refine Image.keyOf_toDecl (fun g hg => ?_) row
  obtain ⟨f, hf, hname, -⟩ := of g hg
  have hd : sc.fields[g.number]? = some f.toDecl := by
    rw [fields, List.getElem?_map, hf]
    rfl
  rw [← hname]
  exact Schema.position?_of_validate valid.valid hd

namespace Workspace

def Timely (w : Workspace Host) : Step → Prop
  | .act (.table n call) => ∀ o t, get? w.tables n = some (o, t) → call.Timely t
  | _ => True

def Defined (w : Workspace Host) : Prop :=
  ∀ n o t, get? w.tables n = some (o, t) → t.Defined

theorem Defined.step (defined : w.Defined) (matched : w.Matched) {y : Step} (timely : w.Timely y) :
    (w.step y).Defined := by
  refine tables_step matched.toStanding defined (fun id => (Table.Built.new id).defined) ?_ ?_
  · exact fun t before => ⟨before.fields, before.indexes, before.segments⟩
  · rintro n o t s call rfl entry hosted before
    exact before.call hosted (timely o t entry) matched.sane.registered matched.valid

theorem defined_steps (config : EngineConfig) (disk : Disk) {xs : List Step}
    (timely : Along step Timely (start config disk) xs) : ((start config disk).steps xs).Defined := by
  have each (w : Workspace Host) (y : Step) (timely : w.Timely y) (kept : w.Matched ∧ w.Defined) :
      (w.step y).Matched ∧ (w.step y).Defined := ⟨kept.1.step y, kept.2.step kept.1 timely⟩
  have start : (start config disk).Defined := nofun
  exact (timely.keeps each ⟨matched_steps config disk [], start⟩).2

/-- As long as the fields that are handed in for segments still stand in their tables, the segments of
a table are always those of its fields; and a field that was handed out stands until its table is
opened anew. The key that a record then looks for is the one that the engine would take of its buffer
for the same index. If table files have whole rows there always is one, and else the record may panic
as it takes a value from beside its buffer. -/
theorem segments_stand (config : EngineConfig) (disk : Disk) (xs : List Step)
    (timely : Along step Timely (start config disk) xs) :
    let w := (start config disk).steps xs
    (∀ n o t, get? w.tables n = some (o, t) →
      (∀ i ∈ t.indexes, ∀ g ∈ i.segments, g.Of t.fields) ∧
      ∀ f ∈ t.fields, ∀ ys, Along step (Keeps n) w ys →
        ∃ u, get? (w.steps ys).tables n = some (o, u) ∧ f.Stands u) ∧
    ∀ n r t s i, w.record? n = some (r, t, s) → r.checkBound t s = .ok () →
      r.activeIndex? t = some i →
      ((∀ (l : Location) bs verify i, l.IsTable → disk.bytes? l = some bs →
        TableFile.decode bs verify = .ok i → i.FullRows) → ∃ key, r.searchKey t s = .ok key) ∧
      ((∃ key, r.searchKey t s = .ok key) ∨ ∃ g ∈ i.segments, r.values.length ≤ g.number ∧
        r.searchKey t s = .error (.panic (.outsideBuffer g.number r.values.length))) ∧
      ∀ j, w.state.image? r.handle = some j →
        r.index.bind (j.schema.indexes[·]?) = some i.toDecl ∧
        ∀ key, r.searchKey t s = .ok key → key = Image.keyOf j.schema i.toDecl r.values := by
  intro w
  have matched : w.Matched := matched_steps config disk xs
  have defined : w.Defined := defined_steps config disk timely
  constructor
  · intro n o t entry
    have before := defined n o t entry
    refine ⟨before.segments, fun f hf ys keeps => ?_⟩
    obtain ⟨u, entry', retained⟩ := extends_steps matched.toStanding keeps entry
    exact ⟨u, entry', retained.stands (before.fields.stands hf)⟩
  · intro n r t s i found bound active
    obtain ⟨m, hr, found⟩ := record?_eq_some.1 found
    obtain ⟨o, entry, -⟩ := table?_eq_some.1 found
    have of := (defined m o t entry).segments
    obtain ⟨k, hk, hi⟩ := Option.bind_eq_some_iff.1 active
    refine ⟨?_, Record.searchKey_cases bound active, ?_⟩
    · intro full
      have wide := (whole_steps config xs full).buffered.records hr entry
      exact Record.searchKey_eq_ok wide of bound active
    · intro j hj
      have settled := (settled_steps config disk xs).bound found bound
      have fields := matched.buffered.matching found bound hj
      constructor
      · rw [hk, Option.bind_some, settled.stored hj, List.getElem?_map, hi]
        rfl
      · intro key hkey
        rw [Record.searchKey_eq active hkey,
          Table.keyOf_eq (of i (List.mem_of_getElem? hi)) (matched.valid.image hj) fields]

def twoFields : List Step := opening ++
  [.act (.table "t" (.addField "a" .uInteger 4 {})), .act (.table "t" (.addField "b" .uInteger 4 {}))]

def second : Field := ⟨0, 1, "b", .uInteger, 4, {}⟩

def searching : List Step := [.act (.table "t" (.editIndex "by" (.addSegment second {}))),
  .act (.table "t" (.create "u" .normal)), .act (.newRecord "r" "t"),
  .act (.record "r" (.set (.number 1) (.unsigned 7)))]

def indexed : List Step := twoFields ++ [.act (.table "t" (.addIndex "by" .fixed))]

theorem searching_timely : Along step Timely (start {} .empty) (indexed ++ searching) := by
  refine .append (.of_forall ?_) ⟨fun o t entry i hi owned => ?_, ?_⟩
  · simp [indexed, twoFields, opening, Timely, TableCall.Timely]
  · have hview : (get? ((start {} .empty).steps indexed).tables "t").map (·.2.fields[1]?) =
        some (some second) := by decide +kernel
    have entry : get? ((start {} .empty).steps indexed).tables "t" = some (o, t) := entry
    rw [entry] at hview
    exact ⟨second, Option.some.inj hview, rfl, rfl⟩
  · exact ⟨fun _ _ _ => trivial, trivial, trivial, trivial⟩

theorem searching_stands : ∃ r t s i j,
    ((start {} .empty).steps (indexed ++ searching)).record? "r" = some (r, t, s) ∧
    r.activeIndex? t = some i ∧ (∀ g ∈ i.segments, g.Of t.fields) ∧
    ((start {} .empty).steps (indexed ++ searching)).state.image? r.handle = some j ∧
    r.index.bind (j.schema.indexes[·]?) = some i.toDecl ∧
    r.searchKey t s = .ok [.unsigned 7] ∧
    Image.keyOf j.schema i.toDecl r.values = [.unsigned 7] := by
  let w := (start {} .empty).steps (indexed ++ searching)
  have hview : (w.record? "r").map (fun x => ((x.1.checkBound x.2.1 x.2.2).isOk,
      (x.1.activeIndex? x.2.1).isSome, (w.state.image? x.1.handle).isSome,
      x.1.searchKey x.2.1 x.2.2)) = some (true, true, true, .ok [.unsigned 7]) := by
    decide +kernel
  obtain ⟨⟨r, t, s⟩, found, hview⟩ := Option.map_eq_some_iff.1 hview
  simp only [Prod.mk.injEq] at hview
  obtain ⟨hbound, hactive, himage, hkey⟩ := hview
  obtain ⟨⟨⟩, bound⟩ := exists_of_isOk hbound
  obtain ⟨i, active⟩ := Option.isSome_iff_exists.1 hactive
  obtain ⟨j, hj⟩ := Option.isSome_iff_exists.1 himage
  obtain ⟨stand, searches⟩ := segments_stand {} .empty (indexed ++ searching) searching_timely
  obtain ⟨m, hr, found'⟩ := record?_eq_some.1 found
  obtain ⟨o, entry, -⟩ := table?_eq_some.1 found'
  obtain ⟨k, -, hi⟩ := Option.bind_eq_some_iff.1 active
  obtain ⟨hindex, hsame⟩ := (searches "r" r t s i found bound active).2.2 j hj
  exact ⟨r, t, s, i, j, found, active, (stand m o t entry).1 i (List.mem_of_getElem? hi), hj, hindex,
    hkey, (hsame _ hkey).symm⟩

def replaced : List Step := twoFields ++
  [.act (.newTable "raw" "s"), .act (.table "raw" (.addField "b" .uInteger 4 {})),
    .act (.table "raw" (.addField "c" .uInteger 4 {})),
    .act (.table "raw" (.create "raw" .normal)), .act (.close "raw"),
    .act (.table "t" (.openStored "raw" .corrupt)), .act (.close "t"),
    .act (.table "t" (.addIndex "by" .fixed))]

def HandedOut (w : Workspace Host) (xs : List Step) : Prop :=
  ∀ (k : Nat) n m f mode, xs[k]? = some (.act (.table n (.editIndex m (.addSegment f mode)))) →
    ∃ j ≤ k, ∃ o t, get? (w.steps (xs.take j)).tables n = some (o, t) ∧ f ∈ t.fields

theorem handedOut_of_none {xs : List Step}
    (none : ∀ n m f mode, .act (.table n (.editIndex m (.addSegment f mode))) ∉ xs) :
    HandedOut w xs :=
  fun _ _ _ _ _ hk => absurd (List.mem_of_getElem? hk) (none _ _ _ _)

theorem replaced_handedOut : HandedOut (start {} .empty) (replaced ++ searching) := by
  intro k n m f mode hk
  rcases Nat.lt_or_ge k replaced.length with hlt | hge
  · rw [List.getElem?_append_left hlt] at hk
    have hmem := List.mem_of_getElem? hk
    simp [replaced, twoFields, opening] at hmem
  · rw [List.getElem?_append_right hge] at hk
    generalize k - replaced.length = d at hk
    rcases d with _ | _ | _ | _ | d <;> cases hk
    have hview : (get? ((start {} .empty).steps twoFields).tables "t").map
        (fun x => decide (second ∈ x.2.fields)) = some true := by decide +kernel
    obtain ⟨⟨o, t⟩, entry, hmem⟩ := Option.map_eq_some_iff.1 hview
    exact ⟨twoFields.length, Nat.le_trans (by decide) hge, o, t, entry, of_decide_eq_true hmem⟩

def hollowImage : Image :=
  ⟨.ofDecls [⟨"id", .uInteger, 4, 0, .none⟩] [⟨"by", .fixed, false, true, [⟨"id", {}⟩]⟩],
    Rows.ofEntries [(1, [])], 2⟩

theorem not_all_segments_stand :
    (¬ ∀ config xs, HandedOut (start config .empty) xs → ∀ n o t,
      get? ((start config .empty).steps xs).tables n = some (o, t) →
      ∀ i ∈ t.indexes, ∀ g ∈ i.segments, g.Of t.fields) ∧
    (¬ ∀ config xs, HandedOut (start config .empty) xs → ∀ n r t s i j key,
      ((start config .empty).steps xs).record? n = some (r, t, s) → r.activeIndex? t = some i →
      ((start config .empty).steps xs).state.image? r.handle = some j →
      r.searchKey t s = .ok key → key = Image.keyOf j.schema i.toDecl r.values) ∧
    ¬ ∀ config disk xs, HandedOut (start config disk) xs → ∀ n r t s i,
      ((start config disk).steps xs).record? n = some (r, t, s) → r.checkBound t s = .ok () →
      r.activeIndex? t = some i → ∃ key, r.searchKey t s = .ok key := by
  refine ⟨fun stand => ?_, fun same => ?_, fun searches => ?_⟩
  · have hview : (get? ((start {} .empty).steps (replaced ++ searching)).tables "t").map
        (fun x => x.2.indexes.any fun i => i.segments.any fun g =>
          (x.2.fields[g.number]?).map (·.name) != some g.field) = some true := by decide +kernel
    obtain ⟨⟨o, t⟩, entry, hany⟩ := Option.map_eq_some_iff.1 hview
    obtain ⟨i, hi, hany⟩ := List.any_eq_true.1 hany
    obtain ⟨g, hg, hname⟩ := List.any_eq_true.1 hany
    obtain ⟨f, hf, heq, -⟩ := stand {} _ replaced_handedOut "t" o t entry i hi g hg
    simp [hf, heq] at hname
  · let w := (start {} .empty).steps (replaced ++ searching)
    have hview : (w.record? "r").map (fun x => (x.1.searchKey x.2.1 x.2.2,
        (w.state.image? x.1.handle).bind fun j => (x.1.activeIndex? x.2.1).map fun i =>
          Image.keyOf j.schema i.toDecl x.1.values)) = some (.ok [.unsigned 7], some [.null]) := by
      decide +kernel
    obtain ⟨⟨r, t, s⟩, found, hview⟩ := Option.map_eq_some_iff.1 hview
    obtain ⟨hkey, hengine⟩ := Prod.mk.inj hview
    obtain ⟨j, hj, hengine⟩ := Option.bind_eq_some_iff.1 hengine
    obtain ⟨i, active, hengine⟩ := Option.map_eq_some_iff.1 hengine
    have heq := same {} _ replaced_handedOut "r" r t s i j _ found active hj hkey
    rw [hengine] at heq
    cases heq
  · let xs := opening ++ .act (.table "t" (.openStored "t" .corrupt)) :: reading
    have hview : (((start {} (diskWith hollowImage)).steps xs).record? "r").map (fun x =>
        ((x.1.checkBound x.2.1 x.2.2).isOk, (x.1.activeIndex? x.2.1).isSome,
          (x.1.searchKey x.2.1 x.2.2).isOk)) = some (true, true, false) := by
      decide +kernel
    obtain ⟨⟨r, t, s⟩, found, hview⟩ := Option.map_eq_some_iff.1 hview
    simp only [Prod.mk.injEq] at hview
    obtain ⟨hbound, hactive, hkey⟩ := hview
    obtain ⟨⟨⟩, bound⟩ := exists_of_isOk hbound
    obtain ⟨i, active⟩ := Option.isSome_iff_exists.1 hactive
    have handed : HandedOut (start {} (diskWith hollowImage)) xs :=
      handedOut_of_none (by simp [xs, opening, reading])
    obtain ⟨key, searched⟩ := searches {} _ xs handed "r" r t s i found bound active
    rw [searched] at hkey
    cases hkey

end Workspace
end Isam
