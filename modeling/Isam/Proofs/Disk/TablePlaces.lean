import Isam.Disk.Tree
import Mathlib.Data.List.TakeWhile
namespace Isam

def tableEnding : List Char := ['.', 'd', 'a', 't']

def Location.IsTable (l : Location) : Prop := tableEnding <:+ (l.getLastD "").toList

instance : DecidablePred Location.IsTable := fun l =>
  inferInstanceAs (Decidable (tableEnding <:+ (l.getLastD "").toList))

def temporaryEnding : List Char := ['.', 'd', 'a', 't', '.', 't', 'm', 'p']

def Location.IsTemporary (l : Location) : Prop := temporaryEnding <:+ (l.getLastD "").toList

theorem Location.IsTemporary.not_isTable {l : Location} (h : l.IsTemporary) : ¬ l.IsTable := by
  intro ht
  obtain hsuffix | hsuffix := List.suffix_or_suffix_of_suffix h ht
  · have hlength := hsuffix.length_le
    revert hlength
    decide
  · revert hsuffix
    decide

namespace Path

theorem splitSlash_of_no_slash {ds : List Char} (h : '/' ∉ ds) : splitSlash ds = [ds] := by
  induction ds with
  | nil => rfl
  | cons d ds ih =>
    have hd : d ≠ '/' := fun hd => h (hd ▸ List.mem_cons_self)
    rw [splitSlash.eq_3 _ _ fun h' => hd h', ih fun hm => h (List.mem_cons_of_mem _ hm)]

theorem splitSlash_append (cs : List Char) {ds : List Char} (h : '/' ∉ ds) :
    ∃ front last, splitSlash cs = front ++ [last] ∧
      splitSlash (cs ++ ds) = front ++ [last ++ ds] := by
  induction cs with
  | nil => exact ⟨[], [], rfl, splitSlash_of_no_slash h⟩
  | cons c cs ih =>
    obtain ⟨front, last, hcs, hds⟩ := ih
    by_cases hc : c = '/'
    · subst hc
      exact ⟨[] :: front, last, by simp [splitSlash, hcs], by simp [splitSlash, hds]⟩
    · rw [List.cons_append, splitSlash.eq_3 _ _ fun h' => hc h',
        splitSlash.eq_3 _ _ fun h' => hc h', hcs, hds]
      cases front with
      | nil => exact ⟨[], c :: last, rfl, rfl⟩
      | cons p front => exact ⟨(c :: p) :: front, last, rfl, rfl⟩

theorem tableEnding_join (p q : Path) (h : tableEnding <:+ q.text.toList) :
    tableEnding <:+ (p.join q).text.toList := by
  unfold join
  split
  · exact h
  · split
    · simpa using h.trans (List.suffix_append _ _)
    · simpa using (h.trans (List.suffix_append ['/'] _)).trans (List.suffix_append _ _)

theorem tableEnding_lastName (p : Path) (h : tableEnding <:+ p.text.toList) :
    tableEnding <:+ p.lastName.toList := by
  obtain ⟨cs, hcs⟩ := h
  have hslash : '/' ∉ tableEnding := by decide
  obtain ⟨front, last, -, hp⟩ := splitSlash_append cs hslash
  rw [hcs] at hp
  have hlast : tableEnding <:+ (String.ofList (last ++ tableEnding)).toList := by simp
  have hkept : (String.ofList (last ++ tableEnding) != "" &&
      String.ofList (last ++ tableEnding) != ".") = true := by
    have hl : 4 ≤ (last ++ tableEnding).length := by simp [tableEnding]
    have hne : ∀ n : String, n.toList.length < 4 → String.ofList (last ++ tableEnding) ≠ n := by
      intro n hn he
      rw [← he, String.toList_ofList] at hn
      omega
    simp only [bne_iff_ne, ne_eq, Bool.and_eq_true]
    exact ⟨hne "" (by decide), hne "." (by decide)⟩
  simp only [lastName, names, hp, List.map_append, List.map_cons, List.map_nil,
    List.filter_append, List.filter_cons, hkept, if_true, List.filter_nil, List.getLastD_concat]
  exact hlast

theorem trimmed_concat_ne_nil (cs : List Char) {c : Char} (h : c ≠ '/') : trimmed (cs ++ [c]) ≠ [] := by
  fun_induction trimmed cs with
  | case1 cs ih => exact ih
  | case2 cs ih => exact ih
  | case3 cs hslash hdot =>
    rw [trimmed.eq_3]
    · simp
    · intro ds hds
      cases cs with
      | nil => exact h (List.cons.inj hds).1
      | cons d cs => exact hslash cs (by rw [(List.cons.inj hds).1])
    · intro ds hds
      rcases cs with _ | ⟨d, _ | ⟨d', cs⟩⟩
      · simp at hds
      · exact h (by simpa using (List.cons.inj (List.cons.inj hds).2).1)
      · obtain ⟨rfl, hrest⟩ := List.cons.inj hds
        obtain ⟨rfl, -⟩ := List.cons.inj hrest
        exact hdot cs rfl

theorem parent_ne_empty {p : Path} (hend : tableEnding <:+ p.text.toList)
    (hslash : '/' ∈ p.text.toList) (relative : p.isAbsolute = false) : p.parent.text ≠ "" := by
  obtain ⟨c, ds, hp⟩ := List.exists_cons_of_ne_nil (List.ne_nil_of_mem hslash)
  have hc : c ≠ '/' := by
    rintro rfl
    simp [isAbsolute, hp] at relative
  rw [hp] at hslash
  have hds : '/' ∈ ds.reverse := by
    rcases List.mem_cons.1 hslash with hslash | hslash
    · exact absurd hslash.symm hc
    · exact List.mem_reverse.2 hslash
  -- the ending is neither a slash nor a dot before one
  have hwhole : trimmed (ds.reverse ++ [c]) = ds.reverse ++ [c] := by
    obtain ⟨front, hfront⟩ := hend
    rw [← List.reverse_cons, ← hp, ← hfront, List.reverse_append]
    rfl
  have hrest : (ds.reverse ++ [c]).dropWhile (· != '/') = ds.reverse.dropWhile (· != '/') ++ [c] := by
    rw [List.dropWhile_append, if_neg]
    rw [List.isEmpty_iff, List.dropWhile_eq_nil_iff]
    exact fun hall => absurd (hall _ hds) (by decide)
  intro hempty
  have hnil := congrArg String.toList hempty
  simp only [parent, hp, List.reverse_cons, hwhole, hrest, String.toList_ofList, String.toList_empty,
    List.reverse_eq_nil_iff] at hnil
  exact trimmed_concat_ne_nil _ hc hnil

theorem isBare_join {p q : Path} (hp : p.text ≠ "") (hq : tableEnding <:+ q.text.toList) :
    (p.join q).isBare = false := by
  unfold isBare
  cases relative : (p.join q).isAbsolute with
  | true => rfl
  | false =>
    have hjoin : '/' ∈ (p.join q).text.toList := by
      unfold join at relative ⊢
      split
      · rename_i habsolute
        rw [if_pos habsolute, habsolute] at relative
        cases relative
      · split
        · rename_i hlast
          have hlast : p.text.toList.getLast? = some '/' := by simpa [hp] using hlast
          simp [List.mem_of_getLast? hlast]
        · simp
    simpa using parent_ne_empty (tableEnding_join p q hq) hjoin relative

end Path

namespace TableAddress

theorem tableEnding_file (a : TableAddress) : tableEnding <:+ a.file.text.toList := by
  apply Path.tableEnding_join
  simp [tableEnding]

end TableAddress

namespace Disk

theorem isTable_of_place? {d : Disk} {p q : Path} {a : TableAddress} {l : Location}
    (hq : q = p.join a.file) (h : d.place? q = some l) : l.IsTable := by
  subst hq
  unfold place? at h
  split at h
  · obtain ⟨m, -, rfl⟩ := Option.map_eq_some_iff.1 h
    simp only [Location.IsTable, List.getLastD_concat]
    exact Path.tableEnding_lastName _ (Path.tableEnding_join _ _ a.tableEnding_file)
  · cases h

theorem isTable_of_key? {d : Disk} {p q : Path} {a : TableAddress} {k : TablePath}
    (hq : q = p.join a.file) (h : d.key? q = some k) : k.place.IsTable := by
  obtain ⟨m, hm, rfl⟩ := Option.map_eq_some_iff.1 h
  exact isTable_of_place? hq hm

theorem isTemporary_of_temporary? {l m : Location} (h : temporary? l = some m) : m.IsTemporary := by
  obtain ⟨n, hn, rfl⟩ := Option.map_eq_some_iff.1 h
  simp only [temporaryName?] at hn
  split at hn
  · cases hn
  · cases hn
    rw [Location.IsTemporary, List.getLastD_concat, String.toList_append]
    exact List.suffix_append _ _

theorem not_isTable_of_temporary? {l m : Location} (h : temporary? l = some m) : ¬ m.IsTable :=
  (isTemporary_of_temporary? h).not_isTable

end Disk
end Isam
