import Isam.FiniteMap
import Mathlib.Data.List.Nodup
namespace Isam.FiniteMap

variable {α β : Type} [DecidableEq α]

@[simp] theorem get?_set_self (m : FiniteMap α β) (k : α) (v : β) : get? (set m k v) k = some v := by
  simp [get?_set]

theorem get?_set_ne (m : FiniteMap α β) {k l : α} (v : β) (h : k ≠ l) :
    get? (set m k v) l = get? m l := by
  simp [get?_set, h]

theorem get?_erase_ne (m : FiniteMap α β) {k l : α} (h : k ≠ l) :
    get? (erase m k) l = get? m l := by
  simp [get?_erase, h]

theorem set_set (m : FiniteMap α β) (k : α) (v w : β) : set (set m k v) k w = set m k w := by
  induction m with
  | nil => simp [set]
  | cons e m ih =>
    by_cases h : e.1 = k
    · simp [set, h]
    · simp [set, h, ih]

theorem erase_set (m : FiniteMap α β) (k : α) (v : β) : erase (set m k v) k = erase m k := by
  induction m with
  | nil => simp [set, erase]
  | cons e m ih =>
    by_cases h : e.1 = k
    · simp [set, erase, h]
    · simp only [erase, ne_eq, decide_not] at ih
      simp [set, erase, h, ih]

theorem set_get? {m : FiniteMap α β} {k : α} {v : β} (h : get? m k = some v) : set m k v = m := by
  induction m with
  | nil => simp [get?_nil] at h
  | cons e m ih =>
    rw [get?_cons] at h
    by_cases he : e.1 = k
    · obtain ⟨a, b⟩ := e
      simp only [if_pos he, Option.some.injEq] at h
      cases he
      cases h
      simp [set]
    · rw [if_neg he] at h
      simp [set, he, ih h]

theorem keys_set (m : FiniteMap α β) (k : α) (v : β) :
    keys (set m k v) = if k ∈ keys m then keys m else keys m ++ [k] := by
  induction m with
  | nil => simp [set, keys]
  | cons e m ih =>
    by_cases h : e.1 = k
    · simp [set, h, keys]
    · have hk : k ≠ e.1 := fun hk => h hk.symm
      simp only [keys] at ih
      by_cases hm : k ∈ List.map (·.1) m
      · simp [set, h, keys, ih, hm]
      · simp [set, h, keys, ih, hm, hk]

theorem keys_erase (m : FiniteMap α β) (k : α) : keys (erase m k) = (keys m).filter (· ≠ k) := by
  simp [keys, erase, List.filter_map, Function.comp_def]

theorem mem_of_get? {m : FiniteMap α β} {k : α} {v : β} (h : get? m k = some v) : (k, v) ∈ m := by
  obtain ⟨e, he, rfl⟩ := Option.map_eq_some_iff.1 h
  have hk : e.1 = k := by simpa using List.find?_some he
  exact hk ▸ List.mem_of_find?_eq_some he

theorem mem_keys_iff {m : FiniteMap α β} {k : α} : k ∈ keys m ↔ ∃ v, get? m k = some v := by
  induction m with
  | nil => simp [keys, get?_nil]
  | cons e m ih =>
    rw [get?_cons]
    by_cases h : e.1 = k
    · simp [keys, h]
    · simp only [keys] at ih
      simp [keys, h, ih, show k ≠ e.1 from fun hk => h hk.symm]

theorem get?_eq_none_iff {m : FiniteMap α β} {k : α} : get? m k = none ↔ k ∉ keys m := by
  rw [mem_keys_iff]
  cases get? m k <;> simp

theorem erase_of_get?_none {m : FiniteMap α β} {k : α} (h : get? m k = none) : erase m k = m :=
  List.filter_eq_self.2 fun e he => by
    simpa using fun hk => get?_eq_none_iff.1 h (List.mem_map.2 ⟨e, he, hk⟩)

theorem erase_set_of_get?_none {m : FiniteMap α β} {k : α} (h : get? m k = none) (v : β) :
    erase (set m k v) k = m := by
  rw [erase_set, erase_of_get?_none h]

theorem mem_iff_get? {m : FiniteMap α β} (hm : (keys m).Nodup) {k : α} {v : β} :
    (k, v) ∈ m ↔ get? m k = some v := by
  refine ⟨fun h => ?_, mem_of_get?⟩
  induction m with
  | nil => simp at h
  | cons e m ih =>
    rw [get?_cons]
    obtain ⟨he, hm⟩ := List.nodup_cons.1 hm
    rcases List.mem_cons.1 h with h | h
    · simp [← h]
    · have hk : e.1 ≠ k := fun hk => he (List.mem_map.2 ⟨(k, v), h, hk.symm⟩)
      rw [if_neg hk]
      exact ih hm h

theorem nodup_keys_set {m : FiniteMap α β} (hm : (keys m).Nodup) (k : α) (v : β) :
    (keys (set m k v)).Nodup := by
  rw [keys_set]
  split
  · exact hm
  · rename_i hk
    exact List.nodup_append.2 ⟨hm, List.nodup_singleton k, fun a ha b hb heq =>
      hk (List.mem_singleton.1 hb ▸ heq ▸ ha)⟩

theorem nodup_keys_erase {m : FiniteMap α β} (hm : (keys m).Nodup) (k : α) :
    (keys (erase m k)).Nodup := by
  rw [keys_erase]
  exact hm.filter _

omit [DecidableEq α] in
theorem nodup_of_positions {γ : Type} {xs : List γ} {name : γ → α} {position? : α → Option Nat}
    (positions : ∀ (k : Nat) x, xs[k]? = some x → position? (name x) = some k) :
    (xs.map name).Nodup := by
  rw [List.Nodup, List.pairwise_map, List.pairwise_iff_getElem]
  intro k n hk hn hlt heq
  have hpos := positions k _ (List.getElem?_eq_getElem hk)
  rw [heq, positions n _ (List.getElem?_eq_getElem hn), Option.some.injEq] at hpos
  omega

end Isam.FiniteMap
