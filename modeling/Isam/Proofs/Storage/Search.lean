import Isam.Proofs.Storage.Order
namespace Isam

open Image (keyOf)

structure Rises (x y : Ordering) : Prop where
  not_lt : x ≠ .lt → y ≠ .lt
  gt : x = .gt → y = .gt

namespace Rises

variable {x y z x' y' z' : Ordering}

theorem refl (x : Ordering) : Rises x x := ⟨id, id⟩

theorem of_composes (h : Composes x y z) (hle : x.then x' ≠ .gt)
    (hlater : x' ≠ .gt → Rises z' y') : Rises (z.then z') (y.then y') := by
  obtain ⟨same, left, right⟩ := h
  cases x with
  | gt => exact absurd rfl hle
  | eq =>
    rw [left rfl]
    obtain ⟨hnot, hgt⟩ := hlater hle
    cases y with
    | eq => exact ⟨hnot, hgt⟩
    | lt | gt => exact .refl _
  | lt =>
    cases y with
    | lt =>
      rw [same rfl]
      exact .refl .lt
    | eq =>
      rw [right rfl]
      exact ⟨fun h => absurd rfl h, nofun⟩
    | gt => exact ⟨fun _ => nofun, fun _ => rfl⟩

end Rises

theorem IndexDecl.compareParts_rises {as bs ks : Key} (gs : List SegmentDecl)
    (hab : List.Forall₂ Value.Alike as bs) (ha : ∀ p ∈ as.zip ks, p.1.Alike p.2)
    (hb : ∀ p ∈ bs.zip ks, p.1.Alike p.2) (hle : compareParts gs as bs ≠ .gt) :
    Rises (compareParts gs as ks) (compareParts gs bs ks) := by
  induction gs generalizing as bs ks with
  | nil => exact .refl .eq
  | cons g gs ih =>
    cases hab with
    | nil => exact .refl _
    | cons hab habs =>
      cases ks with
      | nil => exact .refl .eq
      | cons k ks =>
        rw [List.zip_cons_cons, List.forall_mem_cons] at ha hb
        have hfirst := SegmentMode.compare_composes (m := g.mode) hab hb.1 ha.1
        exact .of_composes hfirst hle fun hles => ih habs ha.2 hb.2 hles

def Schema.Storable (s : Schema) (d : IndexDecl) (key : Key) : Prop :=
  ∀ p ∈ d.segments.zip key, ∀ f, s.field? p.1.field = some f →
    f.type.checkValue f.length p.2 = .ok ()

namespace FindMode

def Asks : FindMode → Ordering → Prop
  | .eq, o => o = .eq
  | .lt, o => o = .lt
  | .le, o => o = .lt ∨ o = .eq
  | .gt, o => o = .gt
  | .ge, o => o = .gt ∨ o = .eq

theorem accepts_iff {mode : FindMode} {o : Ordering} : mode.accepts o = true ↔ mode.Asks o := by
  cases mode <;> cases o <;> simp [accepts, Asks]

end FindMode

section Lists

variable {α β : Type} {P : α → Prop} {l below same above front mid back : List α}
  {cut : α → Ordering}

structure CutInto (cut : α → Ordering) (l below same above : List α) : Prop where
  parts : l = below ++ (same ++ above)
  below : ∀ a ∈ below, cut a = .lt
  same : ∀ a ∈ same, cut a = .eq
  above : ∀ a ∈ above, cut a = .gt

theorem cutInto_of_pairwise (h : l.Pairwise fun a b => Rises (cut a) (cut b)) :
    ∃ below same above, CutInto cut l below same above := by
  induction l with
  | nil => exact ⟨[], [], [], rfl, nofun, nofun, nofun⟩
  | cons a l ih =>
    obtain ⟨hrises, hl⟩ := List.pairwise_cons.1 h
    obtain ⟨below, same, above, rfl, hbelow, hsame, habove⟩ := ih hl
    have hempty (hcut : cut a ≠ .lt) : below = [] := by
      rw [List.eq_nil_iff_forall_not_mem]
      intro b hb
      exact (hrises b (by simp [hb])).not_lt hcut (hbelow b hb)
    cases hcut : cut a with
    | lt =>
      refine ⟨a :: below, same, above, rfl, ?_, hsame, habove⟩
      exact List.forall_mem_cons.2 ⟨hcut, hbelow⟩
    | eq =>
      cases hempty (by simp [hcut])
      refine ⟨[], a :: same, above, rfl, nofun, ?_, habove⟩
      exact List.forall_mem_cons.2 ⟨hcut, hsame⟩
    | gt =>
      cases hempty (by simp [hcut])
      have hnone : same = [] := by
        rw [List.eq_nil_iff_forall_not_mem]
        intro b hb
        have hb' := (hrises b (by simp [hb])).gt hcut
        rw [hsame b hb] at hb'
        cases hb'
      cases hnone
      refine ⟨[], [], a :: above, rfl, nofun, nofun, ?_⟩
      exact List.forall_mem_cons.2 ⟨hcut, habove⟩

namespace FindMode

def within (below same above : List α) : FindMode → List α
  | .eq => same
  | .lt => below
  | .le => below ++ same
  | .gt => above
  | .ge => same ++ above

def pick (mode : FindMode) (l : List α) : Option α :=
  if mode.fromEnd then l.getLast? else l.head?

theorem pick_eq_none {mode : FindMode} : mode.pick l = none ↔ l = [] := by
  unfold pick
  split
  · exact List.getLast?_eq_none_iff
  · exact List.head?_eq_none_iff

theorem map_pick (mode : FindMode) (f : α → β) : (mode.pick l).map f = mode.pick (l.map f) := by
  unfold pick
  split
  · exact List.getLast?_map.symm
  · exact List.head?_map.symm

end FindMode

structure Between (P : α → Prop) (l front mid back : List α) : Prop where
  parts : l = front ++ (mid ++ back)
  front : ∀ a ∈ front, ¬ P a
  mid : ∀ a ∈ mid, P a
  back : ∀ a ∈ back, ¬ P a

theorem CutInto.between (h : CutInto cut l below same above) (mode : FindMode) : ∃ front back,
    Between (fun a => mode.Asks (cut a)) l front (mode.within below same above) back := by
  obtain ⟨rfl, hbelow, hsame, habove⟩ := h
  have yes {part : List α} {o : Ordering} {mode : FindMode} (hpart : ∀ a ∈ part, cut a = o)
      (h : mode.Asks o) : ∀ a ∈ part, mode.Asks (cut a) := fun a ha => (hpart a ha).symm ▸ h
  have no {part : List α} {o : Ordering} {mode : FindMode} (hpart : ∀ a ∈ part, cut a = o)
      (h : ¬ mode.Asks o) : ∀ a ∈ part, ¬ mode.Asks (cut a) := fun a ha => (hpart a ha).symm ▸ h
  cases mode with
  | eq => exact ⟨below, above, rfl, no hbelow nofun, yes hsame rfl, no habove nofun⟩
  | lt =>
    refine ⟨[], same ++ above, rfl, nofun, yes hbelow rfl, ?_⟩
    exact List.forall_mem_append.2 ⟨no hsame nofun, no habove nofun⟩
  | le =>
    refine ⟨[], above, (List.append_assoc ..).symm, nofun, ?_, no habove nofun⟩
    exact List.forall_mem_append.2 ⟨yes hbelow (.inl rfl), yes hsame (.inr rfl)⟩
  | gt =>
    refine ⟨below ++ same, [], ?_, ?_, yes habove rfl, nofun⟩
    · rw [FindMode.within, List.append_nil, List.append_assoc]
    · exact List.forall_mem_append.2 ⟨no hbelow nofun, no hsame nofun⟩
  | ge =>
    refine ⟨below, [], ?_, no hbelow nofun, ?_, nofun⟩
    · rw [FindMode.within, List.append_nil]
    · exact List.forall_mem_append.2 ⟨yes hsame (.inr rfl), yes habove (.inl rfl)⟩

theorem Between.find? {p : α → Bool} (h : Between (fun a => p a = true) l front mid back) :
    l.find? p = mid.head? := by
  obtain ⟨rfl, hfront, hmid, hback⟩ := h
  rw [List.find?_append, List.find?_eq_none.2 hfront, Option.none_or]
  cases mid with
  | nil => exact List.find?_eq_none.2 hback
  | cons a mid => exact List.find?_cons_of_pos (hmid a List.mem_cons_self)

theorem Between.reverse (h : Between P l front mid back) :
    Between P l.reverse back.reverse mid.reverse front.reverse where
  parts := by rw [h.parts, List.reverse_append, List.reverse_append, List.append_assoc]
  front a ha := h.back a (List.mem_reverse.1 ha)
  mid a ha := h.mid a (List.mem_reverse.1 ha)
  back a ha := h.front a (List.mem_reverse.1 ha)

end Lists

namespace Schema

variable {s : Schema} {d : IndexDecl} {key : Key} {row : Row}

theorem Storable.alike (h : s.Storable d key) (hrow : s.Conforms row) :
    ∀ p ∈ (keyOf s d row).zip key, p.1.Alike p.2 := by
  intro p hp
  rw [keyOf, List.zip_map_left] at hp
  obtain ⟨⟨g, k⟩, hg, rfl⟩ := List.mem_map.1 hp
  show Value.Alike (((s.position? g.field).bind (row[·]?)).getD .null) k
  have hnull : Value.Alike .null k := by
    intro hrank
    cases k <;> first
      | rfl
      | cases hrank
  cases hpos : s.position? g.field with
  | none => exact hnull
  | some n =>
    cases hf : s.fields[n]? with
    | none =>
      rw [Option.bind_some, hrow.get?_none hf]
      exact hnull
    | some f =>
      obtain ⟨v, hv, hcheck⟩ := hrow.checkValue hf
      have hfield : s.field? g.field = some f := by rw [field?, hpos, Option.bind_some, hf]
      rw [Option.bind_some, hv]
      exact Value.alike_of_checkValue hcheck (h (g, k) hg f hfield)

end Schema

theorem not_gt_of_then {x y : Ordering} (h : x.then y = .lt) : x ≠ .gt := by
  rintro rfl
  cases h

namespace Image

variable {i : Image} {d : IndexDecl} {key : Key} {n : Nat} {ids : List RowId} {id : RowId}
  {mode : FindMode}

theorem inOrder_rises (conforming : i.Conforming) (storable : i.schema.Storable d key) :
    (i.inOrder d).Pairwise fun a b =>
      Rises (d.compareKeys (keyOf i.schema d a.2) key)
        (d.compareKeys (keyOf i.schema d b.2) key) := by
  refine (inOrder_ascending conforming).imp_of_mem fun {a b} ha hb hab => ?_
  have hrow := conforming a (mem_inOrder.1 ha)
  have hrow' := conforming b (mem_inOrder.1 hb)
  exact IndexDecl.compareParts_rises d.segments (Schema.alike_keyOf hrow hrow')
    (storable.alike hrow) (storable.alike hrow') (not_gt_of_then hab)

def Asked (i : Image) (d : IndexDecl) (mode : FindMode) (key : Key) (id : RowId) : Prop :=
  ∃ row, i.rows.get? id = some row ∧ mode.Asks (d.compareKeys (keyOf i.schema d row) key)

/-- What a search answers of rows that are traversed in the order `ids`. -/
structure Answers (i : Image) (d : IndexDecl) (mode : FindMode) (key : Key) (ids : List RowId)
    (found : Option RowId) : Prop where
  none_iff : found = none ↔ ∀ id, ¬ i.Asked d mode key id
  first : mode ∈ [.eq, .ge, .gt] → ∀ id, found = some id → ∃ front back,
    ids = front ++ id :: back ∧ i.Asked d mode key id ∧ ∀ k ∈ front, ¬ i.Asked d mode key k
  last : mode ∈ [.le, .lt] → ∀ id, found = some id → ∃ front back,
    ids = front ++ id :: back ∧ i.Asked d mode key id ∧ ∀ k ∈ back, ¬ i.Asked d mode key k

structure Adjoins (i : Image) (index : Option Nat) (before after : Option RowId) : Prop where
  prev : i.moveTo index (after.elim .last .prev) = .ok before
  next : i.moveTo index (before.elim .first .next) = .ok after

theorem search_eq {front mid back : List (RowId × Row)}
    (h : Between (fun e => mode.Asks (d.compareKeys (keyOf i.schema d e.2) key)) (i.inOrder d)
      front mid back) :
    search d (i.keyedRows d) mode key = mode.pick (mid.map (·.1)) := by
  simp only [← FindMode.accepts_iff] at h
  rw [← FindMode.map_pick, search, keyedRows_eq, ← List.map_reverse, FindMode.pick]
  split
  · rw [List.find?_map, Option.map_map, ← List.head?_reverse, ← h.reverse.find?]
    rfl
  · rw [List.find?_map, Option.map_map, ← h.find?]
    rfl

theorem between_ids {front mid back : List (RowId × Row)}
    (h : Between (fun e => mode.Asks (d.compareKeys (keyOf i.schema d e.2) key)) (i.inOrder d)
      front mid back) :
    Between (i.Asked d mode key) ((i.inOrder d).map (·.1)) (front.map (·.1)) (mid.map (·.1))
      (back.map (·.1)) := by
  have hasked : ∀ e ∈ front ++ (mid ++ back), (i.Asked d mode key e.1 ↔
      mode.Asks (d.compareKeys (keyOf i.schema d e.2) key)) := by
    intro e he
    rw [← h.parts, mem_inOrder] at he
    rw [Asked, Rows.mem_entries_iff.1 he]
    simp
  simp only [List.forall_mem_append] at hasked
  obtain ⟨hfront, hmid, hback⟩ := hasked
  constructor
  · rw [h.parts, List.map_append, List.map_append]
  · rw [List.forall_mem_map]
    exact fun e he => mt (hfront e he).1 (h.front e he)
  · rw [List.forall_mem_map]
    exact fun e he => (hmid e he).2 (h.mid e he)
  · rw [List.forall_mem_map]
    exact fun e he => mt (hback e he).1 (h.back e he)

theorem Asked.mem_inOrder (h : i.Asked d mode key id) : id ∈ (i.inOrder d).map (·.1) := by
  obtain ⟨row, hrow, -⟩ := h
  exact List.mem_map.2 ⟨(id, row), Image.mem_inOrder.2 (Rows.mem_entries_iff.2 hrow), rfl⟩

theorem answers_of_between {front mid back : List RowId}
    (hall : ∀ id, i.Asked d mode key id → id ∈ ids)
    (h : Between (i.Asked d mode key) ids front mid back) :
    i.Answers d mode key ids (mode.pick mid) where
  none_iff := by
    rw [FindMode.pick_eq_none]
    constructor
    · rintro rfl id hid
      have hmem := hall id hid
      rw [h.parts, List.nil_append, List.mem_append] at hmem
      rcases hmem with hmem | hmem
      · exact h.front id hmem hid
      · exact h.back id hmem hid
    · intro hnone
      rw [List.eq_nil_iff_forall_not_mem]
      exact fun id hid => hnone id (h.mid id hid)
  first hmode id hid := by
    have hpick : mode.pick mid = mid.head? := by
      cases mode <;> first | rfl | simp at hmode
    rw [hpick] at hid
    obtain ⟨mid', rfl⟩ := List.head?_eq_some_iff.1 hid
    exact ⟨front, mid' ++ back, h.parts, h.mid id List.mem_cons_self, h.front⟩
  last hmode id hid := by
    have hpick : mode.pick mid = mid.getLast? := by
      cases mode <;> first | rfl | simp at hmode
    rw [hpick] at hid
    obtain ⟨mid', rfl⟩ := List.getLast?_eq_some_iff.1 hid
    refine ⟨front ++ mid', back, ?_, h.mid id (by simp), h.back⟩
    rw [h.parts, List.append_assoc, List.append_assoc, List.singleton_append]

theorem adjoins_of_split {index : Option Nat} {before after : List RowId}
    (hids : i.orderedRows index = .ok (before ++ after)) (hnodup : (before ++ after).Nodup) :
    i.Adjoins index before.getLast? after.head? where
  prev := by
    cases after with
    | nil =>
      rw [List.head?_nil, Option.elim_none, moveTo, hids, List.append_nil]
      rfl
    | cons id after =>
      have hnot : id ∉ before := fun h => List.disjoint_of_nodup_append hnodup h List.mem_cons_self
      rw [List.head?_cons, Option.elim_some, moveTo, hids]
      simp only [bind, Except.bind, predecessor?_append hnot]
      rfl
  next := by
    rcases List.eq_nil_or_concat before with rfl | ⟨front, id, rfl⟩
    · rw [List.getLast?_nil, Option.elim_none, moveTo, hids, List.nil_append]
      rfl
    · rw [List.concat_eq_append, List.append_assoc, List.singleton_append] at hids hnodup
      have hnot : id ∉ front := fun h => List.disjoint_of_nodup_append hnodup h List.mem_cons_self
      rw [List.concat_eq_append, List.getLast?_concat, Option.elim_some, moveTo, hids]
      simp only [bind, Except.bind, successor?_append hnot]
      rfl

/-- A search answers the first or the last row that its mode asks for in the order of the index, and
none exactly if there is no such row. The answers for `le` and `gt` stand side by side in that order,
and so do those for `lt` and `ge`. -/
theorem find_finds_in_order (conforming : i.Conforming) (hindex : i.schema.indexes[n]? = some d)
    (storable : i.schema.Storable d key) :
    ∃ ids, i.orderedRows (some n) = .ok ids ∧ ∃ found : FindMode → Option RowId,
      (∀ mode, i.moveTo (some n) (.find mode key) = .ok (found mode) ∧
        i.Answers d mode key ids (found mode)) ∧
      i.Adjoins (some n) (found .le) (found .gt) ∧ i.Adjoins (some n) (found .lt) (found .ge) := by
  obtain ⟨below, same, above, hcut⟩ := cutInto_of_pairwise (inOrder_rises conforming storable)
  have hids : i.orderedRows (some n) = .ok ((i.inOrder d).map (·.1)) := orderedRows_eq hindex
  have hnodup := nodup_inOrder (i := i) (d := d)
  refine ⟨_, hids, fun mode => mode.pick ((mode.within below same above).map (·.1)), ?_, ?_, ?_⟩
  · intro mode
    obtain ⟨front, back, hbetween⟩ := hcut.between mode
    constructor
    · simp only [moveTo, indexAt_eq hindex, bind, Except.bind, search_eq hbetween]
      rfl
    · exact answers_of_between (fun _ => Asked.mem_inOrder) (between_ids hbetween)
  · rw [hcut.parts, ← List.append_assoc, List.map_append] at hids hnodup
    exact adjoins_of_split hids hnodup
  · rw [hcut.parts, List.map_append] at hids hnodup
    exact adjoins_of_split hids hnodup

def byName : IndexDecl where
  name := "by_name"
  kind := .fixed
  segments := [⟨"name", ⟨true, true⟩⟩, ⟨"id", ⟨false, false⟩⟩]

def named : Image where
  schema := .ofDecls [⟨"id", .uInteger, 4, 0, .none⟩, ⟨"name", .varChar, 8, 1, .none⟩] [byName]
  rows := ⟨[(1, [.null, .null]), (2, [.unsigned 9, .text "A"]), (3, [.unsigned 7, .text "a"]),
    (4, [.unsigned 1, .text "b"])], by decide⟩
  nextRow := 5

theorem named_conforming : named.Conforming := by
  intro e he
  apply Schema.checkRow_eq_ok.1
  revert e
  decide

theorem named_orderedRows : named.orderedRows (some 0) = .ok [4, 3, 2, 1] := by
  have hsorted : named.inOrder byName =
      [(4, [.unsigned 1, .text "b"]), (3, [.unsigned 7, .text "a"]),
        (2, [.unsigned 9, .text "A"]), (1, [.null, .null])] :=
    inOrder_eq named_conforming (by decide) (by decide +kernel)
  rw [orderedRows_eq (d := byName) rfl, hsorted]
  rfl

theorem prefix_found_in_order : named.Conforming ∧ named.schema.indexes[0]? = some byName ∧
    named.schema.Storable byName [.text "a"] ∧ ∃ found : FindMode → Option RowId,
      (∀ mode, named.moveTo (some 0) (.find mode [.text "a"]) = .ok (found mode) ∧
        named.Answers byName mode [.text "a"] [4, 3, 2, 1] (found mode)) ∧
      named.Adjoins (some 0) (found .le) (found .gt) ∧
      named.Adjoins (some 0) (found .lt) (found .ge) := by
  have storable : named.schema.Storable byName [.text "a"] := by
    unfold Schema.Storable
    decide
  obtain ⟨ids, hids, found⟩ := find_finds_in_order named_conforming (n := 0) rfl storable
  rw [named_orderedRows] at hids
  cases hids
  exact ⟨named_conforming, rfl, storable, found⟩

end Image
end Isam
