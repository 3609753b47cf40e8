import Isam.Proofs.Storage.Search
namespace Isam

theorem Rows.ofEntries_of_perm {r : Rows} {es : List (RowId × Row)} (h : es.Perm r.entries) :
    ofEntries es = r := by
  have hnodup : (es.map (·.1)).Nodup := (h.map _).nodup_iff.2 r.nodup_ids
  apply ext_get?
  intro k
  rw [ofEntries, get?_foldl_insert es hnodup, get?_empty, get?_eq]
  ext row
  rw [← FiniteMap.mem_iff_get? r.nodup_ids, ← h.mem_iff, FiniteMap.mem_iff_get? hnodup]
  split
  · rfl
  · rename_i hk
    rw [FiniteMap.get?_eq_none_iff.2 hk]

namespace Image

variable {i : Image} {d : IndexDecl} {index : Option Nat} {ids : List RowId} {a b k : RowId}

structure Sorts (i : Image) (d : IndexDecl) (ids : List RowId) : Prop where
  nodup : ids.Nodup
  mem_iff : ∀ k, k ∈ ids ↔ i.rows.contains k = true
  sorted : ids.Pairwise fun a b => ∀ u v, i.rows.get? a = some u → i.rows.get? b = some v →
    i.schema.Precedes d (a, u) (b, v)

structure Walks (i : Image) (index : Option Nat) (ids : List RowId) : Prop where
  first : i.moveTo index .first = .ok ids.head?
  last : i.moveTo index .last = .ok ids.getLast?
  next : ∀ front k back, ids = front ++ k :: back → i.moveTo index (.next k) = .ok back.head?
  prev : ∀ front k back, ids = front ++ k :: back → i.moveTo index (.prev k) = .ok front.getLast?

theorem sorts_inOrder (conforming : i.Conforming) : i.Sorts d ((i.inOrder d).map (·.1)) where
  nodup := nodup_inOrder
  mem_iff k := by
    rw [Rows.contains, Option.isSome_iff_exists, List.mem_map]
    constructor
    · rintro ⟨e, he, rfl⟩
      exact ⟨e.2, Rows.mem_entries_iff.1 (mem_inOrder.1 he)⟩
    · rintro ⟨row, hrow⟩
      exact ⟨(k, row), mem_inOrder.2 (Rows.mem_entries_iff.2 hrow), rfl⟩
  sorted := by
    rw [List.pairwise_map]
    refine (inOrder_ascending conforming).imp_of_mem fun {a b} ha hb hab u v hu hv => ?_
    rw [Rows.mem_entries_iff.1 (mem_inOrder.1 ha)] at hu
    rw [Rows.mem_entries_iff.1 (mem_inOrder.1 hb)] at hv
    cases hu
    cases hv
    exact hab

theorem walks_of_nodup (hids : i.orderedRows index = .ok ids) (hnodup : ids.Nodup) :
    i.Walks index ids := by
  have split {before after : List RowId} (h : ids = before ++ after) :
      i.Adjoins index before.getLast? after.head? :=
    adjoins_of_split (h ▸ hids) (h ▸ hnodup)
  refine ⟨(split (List.nil_append ids).symm).next, (split (List.append_nil ids).symm).prev, ?_, ?_⟩
  · intro front k back h
    rw [List.append_cons] at h
    have hnext := (split h).next
    rwa [List.getLast?_concat] at hnext
  · intro front k back h
    exact (split h).prev

theorem Walks.next_eq_iff (walks : i.Walks index ids) (ha : a ∈ ids) :
    i.moveTo index (.next a) = .ok (some b) ↔ ∃ front back, ids = front ++ a :: b :: back := by
  constructor
  · intro hnext
    obtain ⟨front, back, h⟩ := List.append_of_mem ha
    rw [walks.next front a back h, Except.ok.injEq] at hnext
    obtain ⟨back, rfl⟩ := List.head?_eq_some_iff.1 hnext
    exact ⟨front, back, h⟩
  · rintro ⟨front, back, h⟩
    exact walks.next front a (b :: back) h

theorem Walks.prev_eq_iff (walks : i.Walks index ids) (hb : b ∈ ids) :
    i.moveTo index (.prev b) = .ok (some a) ↔ ∃ front back, ids = front ++ a :: b :: back := by
  constructor
  · intro hprev
    obtain ⟨front, back, h⟩ := List.append_of_mem hb
    rw [walks.prev front b back h, Except.ok.injEq] at hprev
    obtain ⟨front, rfl⟩ := List.getLast?_eq_some_iff.1 hprev
    exact ⟨front, back, by rw [h, List.append_assoc, List.singleton_append]⟩
  · rintro ⟨front, back, h⟩
    rw [List.append_cons] at h
    rw [walks.prev (front ++ [a]) b back h, List.getLast?_concat]

/-- In the order of an index, or of the numbers alone, a table lists every stored row once, by key
and then by number, whatever the order in which the rows were put in. First and last are the ends of
that list, and next and prev go to the rows on either side, each the other's way back. From a row
that is not stored neither goes anywhere. -/
theorem traversal_sorted_both_ways (conforming : i.Conforming)
    (active : i.schema.order? index = some d) :
    ∃ ids, i.orderedRows index = .ok ids ∧ i.Sorts d ids ∧
      (index = none → ids.Pairwise (· < ·)) ∧
      (∀ es : List (RowId × Row), es.Perm i.rows.entries →
        orderedRows { i with rows := .ofEntries es } index = .ok ids) ∧
      i.Walks index ids ∧
      ((i.moveTo index .first = .ok none ↔ i.rows.entries = []) ∧
        (i.moveTo index .last = .ok none ↔ i.rows.entries = [])) ∧
      (∀ a b, i.rows.contains a = true → i.rows.contains b = true →
        (i.moveTo index (.next a) = .ok (some b) ↔ i.moveTo index (.prev b) = .ok (some a))) ∧
      (∀ k, ids.getLast? = some k → i.moveTo index (.next k) = .ok none) ∧
      (∀ k, ids.head? = some k → i.moveTo index (.prev k) = .ok none) ∧
      ∀ k, i.rows.contains k = false → (Error.noRow k).kind = .notFound ∧
        i.moveTo index (.next k) = .error (.noRow k) ∧
        i.moveTo index (.prev k) = .error (.noRow k) := by
  have hids : i.orderedRows index = .ok ((i.inOrder d).map (·.1)) := orderedRows_eq active
  have sorts := sorts_inOrder (d := d) conforming
  have walks := walks_of_nodup hids sorts.nodup
  have hempty := orderedRows_eq_nil hids
  refine ⟨_, hids, sorts, ?_, ?_, walks, ⟨?_, ?_⟩, ?_, ?_, ?_, ?_⟩
  · rintro rfl
    have hphysical : i.orderedRows none = .ok i.rows.ids := rfl
    rw [← Except.ok.inj (hphysical.symm.trans hids)]
    exact List.pairwise_map.2 i.rows.ascending
  · intro es hes
    rw [Rows.ofEntries_of_perm hes]
    exact hids
  · rw [walks.first, Except.ok.injEq, List.head?_eq_none_iff, hempty]
  · rw [walks.last, Except.ok.injEq, List.getLast?_eq_none_iff, hempty]
  · intro a b ha hb
    rw [walks.next_eq_iff ((sorts.mem_iff a).2 ha), walks.prev_eq_iff ((sorts.mem_iff b).2 hb)]
  · intro k hk
    obtain ⟨front, h⟩ := List.getLast?_eq_some_iff.1 hk
    exact walks.next front k [] h
  · intro k hk
    obtain ⟨back, h⟩ := List.head?_eq_some_iff.1 hk
    exact walks.prev [] k back h
  · intro k hk
    have hgone : k ∉ (i.inOrder d).map (·.1) := by
      rw [sorts.mem_iff, hk]
      exact Bool.false_ne_true
    exact ⟨rfl, moveTo_of_not_mem hids hgone⟩

theorem named_traversed : named.Conforming ∧ named.schema.order? (some 0) = some byName ∧
    named.Sorts byName [4, 3, 2, 1] ∧ named.moveTo (some 0) .first = .ok (some 4) ∧
    named.moveTo (some 0) (.next 3) = .ok (some 2) ∧
    named.moveTo (some 0) (.prev 2) = .ok (some 3) ∧
    named.moveTo (some 0) (.next 1) = .ok none ∧
    named.moveTo (some 0) (.prev 5) = .error (.noRow 5) := by
  obtain ⟨ids, hids, sorts, -, -, walks, -, both, last, -, gone⟩ :=
    @traversal_sorted_both_ways named byName (some 0) named_conforming rfl
  rw [named_orderedRows] at hids
  cases hids
  have hnext := walks.next [4] 3 [2, 1] rfl
  exact ⟨named_conforming, rfl, sorts, walks.first, hnext, (both 3 2 (by decide) (by decide)).1 hnext,
    last 1 rfl, (gone 5 (by decide)).2.2⟩

end Image
end Isam
