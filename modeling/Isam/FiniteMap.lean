namespace Isam

variable {α β : Type} [DecidableEq α]

/-- A finite map as the list of its bindings, in the order in which their keys came. -/
abbrev FiniteMap (α β : Type) := List (α × β)

namespace FiniteMap

def get? (m : FiniteMap α β) (k : α) : Option β := (m.find? (·.1 = k)).map (·.2)

def contains (m : FiniteMap α β) (k : α) : Bool := (get? m k).isSome

def keys (m : FiniteMap α β) : List α := m.map (·.1)

def set : FiniteMap α β → α → β → FiniteMap α β
  | [], k, v => [(k, v)]
  | e :: m, k, v => if e.1 = k then (k, v) :: m else e :: set m k v

def erase (m : FiniteMap α β) (k : α) : FiniteMap α β := m.filter (·.1 ≠ k)

theorem get?_nil (k : α) : get? ([] : FiniteMap α β) k = none := rfl

theorem get?_cons (e : α × β) (m : FiniteMap α β) (k : α) :
    get? (e :: m) k = if e.1 = k then some e.2 else get? m k := by
  by_cases h : e.1 = k <;> simp [get?, h]

theorem get?_set (m : FiniteMap α β) (k l : α) (v : β) :
    get? (set m k v) l = if k = l then some v else get? m l := by
  induction m with
  | nil => simp [set, get?_cons, get?_nil]
  | cons e m ih =>
    simp only [set]
    split
    · rename_i h
      by_cases hl : k = l <;> simp [get?_cons, hl, h]
    · rename_i h
      rw [get?_cons, get?_cons, ih]
      by_cases hl : e.1 = l
      · simp [hl, show k ≠ l from fun hk => h (hl.trans hk.symm)]
      · simp [hl]

theorem get?_erase (m : FiniteMap α β) (k l : α) :
    get? (erase m k) l = if k = l then none else get? m l := by
  induction m with
  | nil => simp [erase, get?_nil]
  | cons e m ih =>
    by_cases h : e.1 = k
    · have : erase (e :: m) k = erase m k := by simp [erase, h]
      rw [this, ih, get?_cons]
      by_cases hl : k = l <;> simp [hl, h]
    · have : erase (e :: m) k = e :: erase m k := by simp [erase, h]
      rw [this, get?_cons, get?_cons, ih]
      by_cases hl : k = l
      · simp [hl, show e.1 ≠ l from fun he => h (he.trans hl.symm)]
      · simp [hl]

end FiniteMap
end Isam
