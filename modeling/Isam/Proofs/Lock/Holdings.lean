import Isam.Proofs.Lock.WellFormed
namespace Isam

open FiniteMap

abbrev Holdings := ConnectionId → LockResource → Option LockKind

namespace Holdings

def empty : Holdings := fun _ _ => none

/-- No other owner has an exclusive lock, and none has any where an exclusive one is asked for. -/
def Grants (H : Holdings) (o : ConnectionId) (r : LockResource) (k : LockKind) : Prop :=
  ∀ p, p ≠ o → H p r ≠ some .exclusive ∧ (k = .exclusive → H p r = none)

def put (H : Holdings) (o : ConnectionId) (r : LockResource) (k : LockKind) : Holdings :=
  fun p q => if p = o ∧ q = r then some k else H p q

open scoped Classical in
noncomputable def clear (H : Holdings) (o : ConnectionId) (P : LockResource → Prop) : Holdings :=
  fun p q => if p = o ∧ P q then none else H p q

open scoped Classical in
noncomputable def after (H : Holdings) : LockCall → Holdings
  | .acquire o r k => if H.Grants o r k then H.put o r k else H
  | .release o r => H.clear o fun q => q = r
  | .releaseAll o => H.clear o fun _ => True
  | .releaseRows o file => H.clear o fun q => ∃ row, q = .row file row

noncomputable def run (H : Holdings) (cs : List LockCall) : Holdings := cs.foldl after H

end Holdings

namespace LockTable

variable {t : LockTable} {H : Holdings} {o p : ConnectionId} {r : LockResource} {k j : LockKind}

def Represents (t : LockTable) (H : Holdings) : Prop := ∀ o r, t.holds? o r = H o r

theorem Compatible.holds?_eq_some (h : t.Compatible) :
    t.holds? o r = some k ↔ (o, k) ∈ t.holdersOf r := by
  rw [holds?_eq_get?, mem_iff_get? (h.once r)]

theorem Compatible.grants_iff (h : t.Compatible) (hH : t.Represents H) :
    H.Grants o r k ↔ t.conflictingHolder? o r k = none := by
  rw [conflictingHolder?_eq_none]
  constructor
  · intro hg x hx hne
    have hheld := h.holds?_eq_some.2 hx
    rw [hH] at hheld
    obtain ⟨hshared, halone⟩ := hg x.1 hne
    rw [hheld] at hshared halone
    constructor
    · cases hk : x.2 with
      | shared => rfl
      | exclusive => exact absurd (congrArg some hk) hshared
    · cases k with
      | shared => rfl
      | exclusive => cases halone rfl
  · intro hall p hne
    rw [← hH]
    have hshared (j : LockKind) (hj : t.holds? p r = some j) : j = .shared ∧ k = .shared :=
      hall (p, j) (h.holds?_eq_some.1 hj) hne
    constructor
    · intro hj
      cases (hshared _ hj).1
    · intro hk
      cases hj : t.holds? p r with
      | none => rfl
      | some j =>
        rw [hk] at hshared
        cases (hshared j hj).2

theorem conflictingHolder?_eq_some (h : t.Compatible) (hH : t.Represents H)
    (hc : t.conflictingHolder? o r k = some (p, j)) :
    p ≠ o ∧ H p r = some j ∧ (j = .exclusive ∨ k = .exclusive) := by
  have hmem := List.mem_of_find?_eq_some hc
  have hconflict := List.find?_some hc
  simp only [Bool.and_eq_true, bne_iff_ne, ne_eq, LockKind.excludes, Bool.or_eq_true,
    beq_iff_eq] at hconflict
  refine ⟨hconflict.1, ?_, hconflict.2⟩
  rw [← hH, h.holds?_eq_some]
  exact hmem

theorem acquire_eq_ok : (t.acquire o r k).1 = .ok () ↔ t.conflictingHolder? o r k = none := by
  rw [acquire_eq]
  cases t.conflictingHolder? o r k <;> simp

theorem Represents.acquire (h : t.Compatible) (hH : t.Represents H) :
    (t.acquire o r k).2.Represents (H.after (.acquire o r k)) := by
  intro p q
  simp only [Holdings.after, h.grants_iff hH, acquire_eq]
  cases hc : t.conflictingHolder? o r k with
  | none => simp only [if_true, holds?_grant, Holdings.put, hH p q]
  | some x => simp only [reduceCtorEq, if_false, hH p q]

theorem Represents.release (hH : t.Represents H) :
    (t.release o r).2.Represents (H.after (.release o r)) := by
  intro p q
  simp only [holds?_release, Holdings.after, Holdings.clear, hH p q, eq_comm]

theorem Represents.releaseAll (h : t.Indexed) (hH : t.Represents H) :
    (t.releaseAll o).Represents (H.after (.releaseAll o)) := by
  intro p q
  simp only [h.holds?_releaseAll, Holdings.after, Holdings.clear, hH p q, and_true]

theorem isRowOf_iff {file : FileId} : r.isRowOf file = true ↔ ∃ row, r = .row file row := by
  cases r <;> simp [LockResource.isRowOf]

theorem Represents.releaseRows {file : FileId} (h : t.Indexed) (hH : t.Represents H) :
    (t.releaseRows o file).Represents (H.after (.releaseRows o file)) := by
  intro p q
  have hrow : p = o ∧ q.isRowOf file = true ↔ p = o ∧ ∃ row, q = .row file row :=
    and_congr_right' isRowOf_iff
  rw [h.holds?_releaseRows, Holdings.after, Holdings.clear]
  by_cases hq : p = o ∧ q.isRowOf file = true
  · rw [if_pos hq, if_pos (hrow.1 hq)]
  · rw [if_neg hq, if_neg fun h => hq (hrow.2 h), hH p q]

theorem Represents.after (h : t.WellFormed) (hH : t.Represents H) (c : LockCall) :
    (t.after c).Represents (H.after c) := by
  cases c with
  | acquire => exact hH.acquire h.toCompatible
  | release => exact hH.release
  | releaseAll => exact hH.releaseAll h.indexed
  | releaseRows => exact hH.releaseRows h.indexed

theorem Represents.run (h : t.WellFormed) (hH : t.Represents H) (cs : List LockCall) :
    (t.run cs).Represents (H.run cs) := by
  induction cs generalizing t H with
  | nil => exact hH
  | cons c cs ih => exact ih (h.after c) (hH.after h c)

/-- The lock table is a plain map from owners and resources to locks, after any calls of any owners:
it grants what the map grants and changes what the map changes, is left as it is where it refuses,
tells of a release whether there was a lock, and tells of a request, before it is made, who is in its
way and with which lock. -/
theorem refines_holdings (cs : List LockCall) :
    let t := LockTable.empty.run cs
    let H := Holdings.empty.run cs
    (∀ o r, t.holds? o r = H o r) ∧
    (∀ o r k, ((t.acquire o r k).1 = .ok () ↔ H.Grants o r k) ∧
      (¬ H.Grants o r k → (t.acquire o r k).2 = t)) ∧
    (∀ o r, (t.release o r).1 = (H o r).isSome) ∧
    ∀ o r k, (t.conflictingHolder? o r k = none ↔ (t.acquire o r k).1 = .ok ()) ∧
      ∀ p j, t.conflictingHolder? o r k = some (p, j) →
        p ≠ o ∧ H p r = some j ∧ (j = .exclusive ∨ k = .exclusive) := by
  intro t H
  have h : t.WellFormed := wellFormed_empty.run cs
  have hempty : LockTable.empty.Represents Holdings.empty := fun _ _ => rfl
  have hH : t.Represents H := hempty.run wellFormed_empty cs
  refine ⟨hH, ?_, ?_, ?_⟩
  · intro o r k
    rw [h.toCompatible.grants_iff hH, acquire_eq_ok]
    refine ⟨Iff.rfl, fun hc => ?_⟩
    obtain ⟨x, hx⟩ := Option.ne_none_iff_exists'.1 hc
    rw [acquire_eq, hx]
  · intro o r
    rw [← hH]
    rfl
  · intro o r k
    exact ⟨acquire_eq_ok.symm, fun p j hc => conflictingHolder?_eq_some h.toCompatible hH hc⟩

theorem refines_upgrade :
    let cs : List LockCall := [.acquire 1 (.row 3 1) .shared, .acquire 1 (.row 3 1) .exclusive]
    let t := LockTable.empty.run cs
    let H := Holdings.empty.run cs
    t.conflictingHolder? 2 (.row 3 1) .shared = some (1, .exclusive) ∧
      H 1 (.row 3 1) = some .exclusive ∧ ¬ H.Grants 2 (.row 3 1) .shared ∧
      (t.acquire 2 (.row 3 1) .shared).2 = t := by
  intro cs t H
  obtain ⟨-, grants, -, conflicts⟩ := refines_holdings cs
  have hc : t.conflictingHolder? 2 (.row 3 1) .shared = some (1, .exclusive) := by decide
  have hrefused : ¬ H.Grants 2 (.row 3 1) .shared := by
    rw [← (grants 2 (.row 3 1) .shared).1, ← (conflicts 2 (.row 3 1) .shared).1]
    exact fun hnone => Option.some_ne_none _ (hc.symm.trans hnone)
  obtain ⟨-, hheld, -⟩ := (conflicts 2 (.row 3 1) .shared).2 1 .exclusive hc
  exact ⟨hc, hheld, hrefused, (grants 2 (.row 3 1) .shared).2 hrefused⟩

end LockTable
end Isam
