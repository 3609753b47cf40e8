import Isam.Lock.Table
import Isam.Proofs.FiniteMap
namespace Isam.LockTable

open FiniteMap

variable {t : LockTable} {o p : ConnectionId} {r q : LockResource} {k : LockKind} {x : Holder}
  {file : FileId}

theorem mem_without {hs : List Holder} : x ∈ without hs o ↔ x ∈ hs ∧ x.1 ≠ o := by
  simp [without]

theorem conflictingHolder?_exclusive :
    t.conflictingHolder? o r .exclusive = none ↔ ∀ x ∈ t.holdersOf r, x.1 = o := by
  simp [conflictingHolder?, conflict?, LockKind.excludes]

theorem holds?_eq_none : t.holds? o r = none ↔ ∀ x ∈ t.holdersOf r, x.1 ≠ o := by
  simp [holds?]

theorem holds?_isSome : (t.holds? o r).isSome = true ↔ ∃ k, (o, k) ∈ t.holdersOf r := by
  rw [Option.isSome_iff_ne_none, ne_eq, holds?_eq_none]
  constructor
  · intro h
    simp only [not_forall, not_not] at h
    obtain ⟨⟨p, k⟩, hx, rfl⟩ := h
    exact ⟨k, hx⟩
  · rintro ⟨k, hk⟩ h
    exact h (o, k) hk rfl

theorem conflictingHolder?_exclusive_eq_none :
    t.conflictingHolder? o r .exclusive = none ↔ ∀ p, p ≠ o → t.holds? p r = none := by
  rw [conflictingHolder?_exclusive]
  constructor
  · intro h p hp
    refine holds?_eq_none.2 fun x hx hxp => hp ?_
    rw [← hxp, h x hx]
  · intro h x hx
    by_contra hne
    exact holds?_eq_none.1 (h x.1 hne) x hx rfl

theorem holdersOf_enter : (t.enter r).holdersOf q = t.holdersOf q := by
  simp only [holdersOf, enter, get?_set]
  split
  · rename_i h
    rw [h]
    rfl
  · rfl

theorem conflictingHolder?_enter :
    (t.enter r).conflictingHolder? o q k = t.conflictingHolder? o q k := by
  rw [conflictingHolder?, holdersOf_enter, conflictingHolder?]

theorem enter_of_conflict (h : t.conflictingHolder? o r k = some x) : t.enter r = t := by
  have hr : get? t.holders r = some (t.holdersOf r) := by
    cases hr : get? t.holders r with
    | some hs => rw [holdersOf, hr, Option.getD_some]
    | none =>
      rw [conflictingHolder?, holdersOf, hr] at h
      cases h
  rw [enter, set_get? hr]

theorem grant_enter : (t.enter r).grant o r k = t.grant o r k := by
  simp only [grant, holdersOf_enter]
  simp only [enter, set_set, ownedBy]

theorem acquire_eq : t.acquire o r k =
    match t.conflictingHolder? o r k with
    | some (holder, held) => (.error (.lockDenied k r held holder), t)
    | none => (.ok (), t.grant o r k) := by
  simp only [acquire, conflictingHolder?_enter]
  cases h : t.conflictingHolder? o r k with
  | none => simp only [grant_enter]
  | some x => simp only [enter_of_conflict h]

theorem holdersOf_grant :
    (t.grant o r k).holdersOf q =
      if r = q then without (t.holdersOf q) o ++ [(o, k)] else t.holdersOf q := by
  simp only [holdersOf, grant, get?_set]
  split
  · rename_i h
    rw [h]
    rfl
  · rfl

theorem ownedBy_grant :
    (t.grant o r k).ownedBy p =
      if o = p then (t.ownedBy p).filter (· != r) ++ [r] else t.ownedBy p := by
  simp only [ownedBy, grant, get?_set]
  split
  · rename_i h
    rw [h]
    rfl
  · rfl

theorem holdersOf_dropHolder :
    (t.dropHolder o r).holdersOf q = if r = q then without (t.holdersOf q) o else t.holdersOf q := by
  unfold dropHolder
  simp only
  by_cases hs : (without (t.holdersOf r) o).isEmpty = true
  · rw [if_pos hs, holdersOf, get?_erase]
    split
    · rename_i h
      rw [← h, List.isEmpty_iff.1 hs]
      rfl
    · rfl
  · rw [if_neg hs, holdersOf, get?_set]
    split
    · rename_i h
      rw [← h]
      rfl
    · rfl

theorem holdersOf_foldl_dropHolder (rs : List LockResource) :
    (rs.foldl (fun t r => t.dropHolder o r) t).holdersOf q =
      if q ∈ rs then without (t.holdersOf q) o else t.holdersOf q := by
  induction rs generalizing t with
  | nil => simp
  | cons r rs ih =>
    rw [List.foldl_cons, ih, holdersOf_dropHolder]
    by_cases hr : r = q
    · -- dropping a holder twice is dropping it once
      simp [hr, without, List.filter_filter]
    · simp [hr, show q ≠ r from fun h => hr h.symm]

theorem holdersOf_releaseEach (rs : List LockResource) :
    (t.releaseEach o rs).holdersOf q =
      if q ∈ rs then without (t.holdersOf q) o else t.holdersOf q := by
  rw [← holdersOf_foldl_dropHolder, releaseEach]
  split <;> rfl

theorem mem_of_releaseEach {rs : List LockResource} (h : x ∈ (t.releaseEach o rs).holdersOf q) :
    x ∈ t.holdersOf q := by
  rw [holdersOf_releaseEach] at h
  split at h
  · exact (mem_without.1 h).1
  · exact h

theorem foldl_dropHolder_owned (rs : List LockResource) :
    (rs.foldl (fun t r => t.dropHolder o r) t).owned = t.owned := by
  induction rs generalizing t with
  | nil => rfl
  | cons r rs ih => rw [List.foldl_cons, ih]; rfl

theorem releaseEach_owned (rs : List LockResource) : (t.releaseEach o rs).owned = t.owned := by
  rw [releaseEach]
  split
  · exact foldl_dropHolder_owned rs
  · exact foldl_dropHolder_owned rs

theorem release_holders : (t.release o r).2.holders = (t.dropHolder o r).holders := by
  simp only [release]
  split <;> rfl

theorem release_owned : (t.release o r).2.owned =
    match get? t.owned o with
    | some rs => set t.owned o (rs.filter (· != r))
    | none => t.owned := by
  simp only [release]
  cases (t.holds? o r).isSome <;> rfl

theorem holdersOf_release :
    (t.release o r).2.holdersOf q = if r = q then without (t.holdersOf q) o else t.holdersOf q := by
  rw [← holdersOf_dropHolder, holdersOf, release_holders, holdersOf]

theorem mem_of_release (h : x ∈ (t.release o r).2.holdersOf q) : x ∈ t.holdersOf q := by
  rw [holdersOf_release] at h
  split at h
  · exact (mem_without.1 h).1
  · exact h

theorem mem_of_releaseAll (h : x ∈ (t.releaseAll o).holdersOf q) : x ∈ t.holdersOf q :=
  mem_of_releaseEach (t := { t with owned := erase t.owned o }) h

theorem mem_of_releaseRows (h : x ∈ (t.releaseRows o file).holdersOf q) : x ∈ t.holdersOf q := by
  rw [releaseRows] at h
  split at h
  · exact h
  · rename_i rs _
    let kept := rs.filter fun r => !r.isRowOf file
    exact mem_of_releaseEach (t := { t with owned := set t.owned o kept }) h

theorem ownedBy_release :
    (t.release o r).2.ownedBy p =
      if o = p then (t.ownedBy p).filter (· != r) else t.ownedBy p := by
  rw [ownedBy, release_owned, ownedBy]
  cases ho : get? t.owned o with
  | none =>
    simp only
    split
    · rename_i h
      rw [← h, ho]
      rfl
    · rfl
  | some rs =>
    simp only
    rw [get?_set]
    split
    · rename_i h
      rw [← h, ho]
      rfl
    · rfl

def Indexed (t : LockTable) : Prop := ∀ o r, r ∈ t.ownedBy o ↔ ∃ k, (o, k) ∈ t.holdersOf r

theorem indexed_empty : empty.Indexed := fun _ _ => by simp [empty, ownedBy, holdersOf, get?]

theorem Indexed.without_holdersOf (h : t.Indexed) (hr : r ∉ t.ownedBy o) :
    without (t.holdersOf r) o = t.holdersOf r := by
  refine List.filter_eq_self.2 fun x hx => ?_
  simp only [bne_iff_ne, ne_eq]
  rintro rfl
  exact hr ((h x.1 r).2 ⟨x.2, hx⟩)

theorem Indexed.holdersOf_releaseAll (h : t.Indexed) :
    (t.releaseAll o).holdersOf q = without (t.holdersOf q) o := by
  have hdrop : (t.releaseAll o).holdersOf q =
      if q ∈ t.ownedBy o then without (t.holdersOf q) o else t.holdersOf q :=
    holdersOf_releaseEach _
  rw [hdrop]
  split
  · rfl
  · rename_i hq
    exact (h.without_holdersOf hq).symm

theorem ownedBy_releaseAll :
    (t.releaseAll o).ownedBy p = if o = p then [] else t.ownedBy p := by
  rw [ownedBy, releaseAll, releaseEach_owned, get?_erase]
  split <;> rfl

theorem Indexed.holdersOf_releaseRows (h : t.Indexed) :
    (t.releaseRows o file).holdersOf q =
      if q.isRowOf file then without (t.holdersOf q) o else t.holdersOf q := by
  have hdrop : (t.releaseRows o file).holdersOf q =
      if q ∈ (t.ownedBy o).filter (·.isRowOf file) then without (t.holdersOf q) o
      else t.holdersOf q := by
    rw [releaseRows, ownedBy]
    cases get? t.owned o with
    | none => simp
    | some rs => exact holdersOf_releaseEach _
  rw [hdrop]
  by_cases hq : q ∈ t.ownedBy o
  · simp [hq]
  · simp [hq, h.without_holdersOf hq]

theorem ownedBy_releaseRows :
    (t.releaseRows o file).ownedBy p =
      if o = p then (t.ownedBy p).filter (fun r => !r.isRowOf file) else t.ownedBy p := by
  rw [releaseRows]
  cases ho : get? t.owned o with
  | none =>
    simp only
    split
    · rename_i h
      rw [ownedBy, ← h, ho]
      rfl
    · rfl
  | some rs =>
    simp only
    rw [ownedBy, releaseEach_owned, get?_set, ownedBy]
    split
    · rename_i h
      rw [← h, ho]
      rfl
    · rfl

theorem Indexed.grant (h : t.Indexed) : (t.grant o r k).Indexed := by
  intro p q
  have hpq := h p q
  rw [ownedBy_grant, holdersOf_grant]
  by_cases ho : o = p
  · by_cases hr : r = q
    · simp [ho, hr]
    · have hq : q ≠ r := fun hq => hr hq.symm
      simp [ho, hr, hq, hpq]
  · have hp : p ≠ o := fun hp => ho hp.symm
    by_cases hr : r = q
    · simp [ho, hr, hpq, mem_without, hp]
    · simp [ho, hr, hpq]

theorem Indexed.release (h : t.Indexed) : (t.release o r).2.Indexed := by
  intro p q
  have hpq := h p q
  rw [ownedBy_release, holdersOf_release]
  by_cases ho : o = p
  · by_cases hr : r = q
    · simp [ho, hr, mem_without]
    · have hq : q ≠ r := fun hq => hr hq.symm
      simp [ho, hr, hq, hpq]
  · have hp : p ≠ o := fun hp => ho hp.symm
    by_cases hr : r = q
    · simp [ho, hr, hpq, mem_without, hp]
    · simp [ho, hr, hpq]

theorem Indexed.releaseAll (h : t.Indexed) : (t.releaseAll o).Indexed := by
  intro p q
  have hpq := h p q
  rw [ownedBy_releaseAll, h.holdersOf_releaseAll]
  by_cases ho : o = p
  · simp [ho, mem_without]
  · have hp : p ≠ o := fun hp => ho hp.symm
    simp [ho, hpq, mem_without, hp]

theorem Indexed.releaseRows (h : t.Indexed) : (t.releaseRows o file).Indexed := by
  intro p q
  have hpq := h p q
  rw [ownedBy_releaseRows, h.holdersOf_releaseRows]
  by_cases ho : o = p
  · by_cases hq : q.isRowOf file = true
    · simp [ho, hq, mem_without]
    · simp [ho, hq, hpq]
  · have hp : p ≠ o := fun hp => ho hp.symm
    by_cases hq : q.isRowOf file = true
    · simp [ho, hq, hpq, mem_without, hp]
    · simp [ho, hq, hpq]

/-! What the calls do to the lock that an owner has on a resource. -/

theorem holds?_eq_get? : t.holds? o r = get? (t.holdersOf r) o := by
  simp only [holds?, get?, beq_eq_decide]

theorem get?_without (hs : List Holder) :
    get? (without hs o) p = if p = o then none else get? hs p := by
  have herase : without hs o = erase hs o := by
    simp only [without, erase, ne_eq, decide_not]
    congr 1
  rw [herase, get?_erase]
  exact if_congr eq_comm rfl rfl

theorem holds?_grant : (t.grant o r k).holds? p q =
    if p = o ∧ q = r then some k else t.holds? p q := by
  rw [holds?_eq_get?, holdersOf_grant, holds?_eq_get?]
  by_cases hq : r = q
  · have hgranted : get? (without (t.holdersOf q) o ++ [(o, k)]) p =
        (get? (without (t.holdersOf q) o) p).or (get? [(o, k)] p) := by
      simp only [get?, List.find?_append, Option.map_or]
    rw [if_pos hq, hgranted, get?_without, get?_cons, get?_nil]
    by_cases hp : p = o
    · simp [hp, hq]
    · simp [hp, show o ≠ p from fun h => hp h.symm]
  · simp [hq, show q ≠ r from fun h => hq h.symm]

theorem holds?_of_without {u : LockTable} {P : Prop} [Decidable P]
    (h : u.holdersOf q = if P then without (t.holdersOf q) o else t.holdersOf q) :
    u.holds? p q = if p = o ∧ P then none else t.holds? p q := by
  rw [holds?_eq_get?, h, holds?_eq_get?]
  by_cases hP : P
  · rw [if_pos hP, get?_without]
    simp [hP]
  · simp [hP]

theorem holds?_release : (t.release o r).2.holds? p q =
    if p = o ∧ r = q then none else t.holds? p q := holds?_of_without holdersOf_release

theorem Indexed.holds?_releaseAll (h : t.Indexed) : (t.releaseAll o).holds? p q =
    if p = o then none else t.holds? p q := by
  rw [holds?_eq_get?, h.holdersOf_releaseAll, get?_without, holds?_eq_get?]

theorem Indexed.holds?_releaseRows (h : t.Indexed) : (t.releaseRows o file).holds? p q =
    if p = o ∧ q.isRowOf file = true then none else t.holds? p q :=
  holds?_of_without h.holdersOf_releaseRows

end Isam.LockTable
