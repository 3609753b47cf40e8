import Isam.Field.Value
import Isam.Field.Check
namespace Isam

structure Composes (x y z : Ordering) : Prop where
  same : x = y → z = x
  left : x = .eq → z = y
  right : y = .eq → z = x

namespace Composes

variable {x y z x' y' z' : Ordering}

theorem of_compare {α : Type} [Ord α] [Std.TransOrd α] (a b c : α) :
    Composes (compare a b) (compare b c) (compare a c) where
  same h := by
    cases hab : compare a b <;> rw [hab] at h
    · exact Std.TransCmp.lt_trans hab h.symm
    · exact Std.TransCmp.eq_trans hab h.symm
    · exact Std.TransCmp.gt_trans hab h.symm
  left h := Std.TransCmp.congr_left h
  right h := (Std.TransCmp.congr_right h).symm

theorem swap (h : Composes x y z) : Composes x.swap y.swap z.swap where
  same hxy := congrArg Ordering.swap (h.same (Ordering.swap_inj.1 hxy))
  left hx := congrArg Ordering.swap (h.left (Ordering.swap_eq_eq.1 hx))
  right hy := congrArg Ordering.swap (h.right (Ordering.swap_eq_eq.1 hy))

theorem andThen (h : Composes x y z) (k : Composes x' y' z') :
    Composes (x.then x') (y.then y') (z.then z') := by
  obtain ⟨same, left, right⟩ := h
  obtain ⟨same', left', right'⟩ := k
  -- the second comparisons count only where the first ones are even
  constructor <;> cases x <;> cases y <;> grind [Ordering.then]

theorem not_gt (h : Composes x y z) (hx : x ≠ .gt) (hy : y ≠ .gt) : z ≠ .gt := by
  cases x with
  | eq => rwa [h.left rfl]
  | gt => exact absurd rfl hx
  | lt =>
    cases y with
    | eq => rwa [h.right rfl]
    | gt => exact absurd rfl hy
    | lt => rwa [h.same rfl]

end Composes

namespace Value

def isFloat : Value → Bool
  | .float _ => true
  | _ => false

def Alike (a b : Value) : Prop := a.rank = b.rank → a.isFloat = b.isFloat

def place (ignoreCase : Bool) : Value → List Int
  | .null => [0]
  | .bool b => [1, b.toNat]
  | .signed n => [2, n.toInt]
  | .unsigned n => [2, n.toNat]
  | .float x => [2, x.position]
  | .date d => [3, d.days.toInt]
  | .time t => [4, t.seconds.toNat]
  | .timestamp t => [5, t.date.days.toInt, t.time.seconds.toNat]
  | .text s => 6 :: (textKey ignoreCase s).map fun b => (b.toNat : Int)
  | .binary bs => 7 :: bs.map fun b => (b.toNat : Int)

end Value

theorem compare_natCast (m n : Nat) : compare (m : Int) (n : Int) = compare m n := by
  simp only [compare, compareOfLessAndEq, Int.ofNat_lt, Int.natCast_inj]

theorem Text.compareBytes_eq (as bs : List UInt8) : compareBytes as bs =
    compare (as.map fun b => (b.toNat : Int)) (bs.map fun b => (b.toNat : Int)) := by
  induction as generalizing bs with
  | nil => cases bs <;> rfl
  | cons a as ih =>
    cases bs with
    | nil => rfl
    | cons b bs =>
      have hbyte : compare a b = compare a.toNat b.toNat := by
        simp only [compare, compareOfLessAndEq, UInt8.lt_iff_toNat_lt, ← UInt8.toNat_inj]
      rw [compareBytes, ih, List.map_cons, List.map_cons, List.compare_cons_cons, compare_natCast,
        hbyte]

namespace Value

variable {a b c : Value} {ignoreCase : Bool} {t : FieldType} {length : UInt32}

theorem compareKey_eq (h : Alike a b) :
    a.compareKey ignoreCase b = compare (a.place ignoreCase) (b.place ignoreCase) := by
  cases a <;> cases b <;> first
    | rfl
    | exact absurd (h rfl) Bool.noConfusion
    | simp [compareKey, place, compare_natCast, Double.totalCompare, Date.compare, Time.compare,
        Timestamp.compare, Text.compareBytes_eq]

theorem compareKey_composes (ignoreCase : Bool) (hab : Alike a b) (hbc : Alike b c)
    (hac : Alike a c) : Composes (a.compareKey ignoreCase b) (b.compareKey ignoreCase c)
      (a.compareKey ignoreCase c) := by
  rw [compareKey_eq hab, compareKey_eq hbc, compareKey_eq hac]
  exact .of_compare _ _ _

theorem isFloat_of_rank_ne (h : a.rank ≠ 2) : a.isFloat = false := by
  cases a <;> first
    | rfl
    | exact absurd rfl h

theorem isFloat_of_checkValue (h : t.checkValue length a = .ok ()) (hrank : a.rank = 2) :
    a.isFloat = t.isFloat := by
  cases a with
  | signed | unsigned => cases t <;> first | rfl | cases h
  | float =>
    simp only [FieldType.checkValue] at h
    split at h
    · rename_i hfloat
      exact hfloat.symm
    · cases h
  | null | bool | date | time | timestamp | text | binary => cases hrank

theorem alike_of_checkValue (ha : t.checkValue length a = .ok ())
    (hb : t.checkValue length b = .ok ()) : Alike a b := by
  intro hrank
  by_cases hnumber : a.rank = 2
  · rw [isFloat_of_checkValue ha hnumber, isFloat_of_checkValue hb (hrank ▸ hnumber)]
  · rw [isFloat_of_rank_ne hnumber, isFloat_of_rank_ne (hrank ▸ hnumber)]

end Value
end Isam
