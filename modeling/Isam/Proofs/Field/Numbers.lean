import Isam.Proofs.Double.Nearest
import Isam.Proofs.Field.Order
namespace Isam

theorem eq_of_cycle {α : Type} [Ord α] [Std.TransOrd α] {x y z : α} (hxy : compare x y ≠ .gt)
    (hyz : compare y z ≠ .gt) (hzx : compare z x ≠ .gt) :
    compare x y = .eq ∧ compare y z = .eq := by
  have hxz : compare x z ≠ .lt := fun h => hzx (Std.OrientedCmp.gt_iff_lt.2 h)
  have composes := Composes.of_compare x y z
  cases hfirst : compare x y with
  | gt => exact absurd hfirst hxy
  | eq =>
    have hsecond := composes.left hfirst
    cases hlast : compare y z with
    | gt => exact absurd hlast hyz
    | eq => exact ⟨rfl, rfl⟩
    | lt => exact absurd (hsecond.trans hlast) hxz
  | lt =>
    cases hlast : compare y z with
    | gt => exact absurd hlast hyz
    | eq => exact absurd ((composes.right hlast).trans hfirst) hxz
    | lt => exact absurd ((composes.same (hfirst.trans hlast.symm)).trans hfirst) hxz

namespace Value

variable {a b c : Value} {ignoreCase : Bool} {m n : Int}

def roundedPlace (ignoreCase : Bool) (v : Value) : List Int :=
  match v.integer? with
  | some n => [2, (Double.ofInt n).position]
  | none => v.place ignoreCase

structure Transits (ignoreCase : Bool) (a b c : Value) : Prop where
  le : a.compareKey ignoreCase b ≠ .gt → b.compareKey ignoreCase c ≠ .gt →
    a.compareKey ignoreCase c ≠ .gt
  eq : a.compareKey ignoreCase b = .eq → b.compareKey ignoreCase c = .eq →
    a.compareKey ignoreCase c = .eq

/-- A float that is the nearest one to two different integers. -/
def Blurs (x a b : Value) : Prop :=
  ∃ m n, a.integer? = some m ∧ b.integer? = some n ∧ m ≠ n ∧
    x = .float (Double.ofInt m) ∧ x = .float (Double.ofInt n)

theorem roundedPlace_integer (ha : a.integer? = some m) :
    a.roundedPlace ignoreCase = [2, (Double.ofInt m).position] := by
  rw [roundedPlace, ha]

theorem compareKey_integers (ha : a.integer? = some m) (hb : b.integer? = some n) :
    a.compareKey ignoreCase b = compare m n := by
  cases a <;> cases b <;> cases ha <;> cases hb <;> first
    | rfl
    | exact (compare_natCast _ _).symm

theorem compareKey_rounded (h : a.integer? = none ∨ b.integer? = none) :
    a.compareKey ignoreCase b =
      compare (a.roundedPlace ignoreCase) (b.roundedPlace ignoreCase) := by
  cases a <;> cases b <;> first
    | rfl
    | (simp [integer?] at h; done)
    | simp [compareKey, roundedPlace, integer?, place, compare_natCast, Double.totalCompare,
        Date.compare, Time.compare, Timestamp.compare, Text.compareBytes_eq]

theorem compare_roundedPlace (ha : a.integer? = some m) (hb : b.integer? = some n) :
    compare (a.roundedPlace ignoreCase) (b.roundedPlace ignoreCase) =
      compare (Double.ofInt m).position (Double.ofInt n).position := by
  rw [roundedPlace_integer ha, roundedPlace_integer hb]
  simp

theorem roundedPlace_le (h : a.compareKey ignoreCase b ≠ .gt) :
    compare (a.roundedPlace ignoreCase) (b.roundedPlace ignoreCase) ≠ .gt := by
  cases ha : a.integer? with
  | none => rwa [← compareKey_rounded (.inl ha)]
  | some m =>
    cases hb : b.integer? with
    | none => rwa [← compareKey_rounded (.inr hb)]
    | some n =>
      rw [compareKey_integers ha hb, Int.compare_ne_gt] at h
      rw [compare_roundedPlace ha hb, Int.compare_ne_gt]
      exact Double.position_ofInt_mono h

theorem roundedPlace_eq (h : a.compareKey ignoreCase b = .eq) :
    a.roundedPlace ignoreCase = b.roundedPlace ignoreCase := by
  cases ha : a.integer? with
  | none =>
    rw [compareKey_rounded (.inl ha)] at h
    exact Std.LawfulEqOrd.eq_of_compare h
  | some m =>
    cases hb : b.integer? with
    | none =>
      rw [compareKey_rounded (.inr hb)] at h
      exact Std.LawfulEqOrd.eq_of_compare h
    | some n =>
      rw [compareKey_integers ha hb] at h
      cases Std.LawfulEqOrd.eq_of_compare h
      rw [roundedPlace_integer ha, roundedPlace_integer hb]

theorem float_of_roundedPlace (hb : b.integer? = none)
    (h : b.roundedPlace ignoreCase = [2, (Double.ofInt m).position]) :
    b = .float (Double.ofInt m) := by
  rw [roundedPlace, hb] at h
  cases b with
  | float x =>
    rw [place, List.cons.injEq, List.cons.injEq] at h
    rw [Double.eq_of_position_eq h.2.1]
  | signed | unsigned => cases hb
  | null | bool | date | time | timestamp | text | binary => cases h

theorem blurs_of_roundedPlace (ha : a.integer? = some m) (hc : c.integer? = some n)
    (hb : b.integer? = none) (hne : m ≠ n)
    (hab : a.roundedPlace ignoreCase = b.roundedPlace ignoreCase)
    (hbc : b.roundedPlace ignoreCase = c.roundedPlace ignoreCase) : Blurs b a c := by
  rw [roundedPlace_integer ha] at hab
  rw [roundedPlace_integer hc] at hbc
  exact ⟨m, n, ha, hc, hne, float_of_roundedPlace hb hab.symm, float_of_roundedPlace hb hbc⟩

theorem compareKey_nearest (ha : a.integer? = some m) :
    a.compareKey ignoreCase (.float (Double.ofInt m)) = .eq := by
  rw [compareKey_rounded (.inr rfl), roundedPlace_integer ha]
  exact Std.ReflOrd.compare_self

theorem Blurs.not_transits (h : Blurs b a c) : ¬ Transits ignoreCase a b c := by
  obtain ⟨m, n, ha, hc, hne, hm, hn⟩ := h
  intro transits
  have hab : a.compareKey ignoreCase b = .eq := hm ▸ compareKey_nearest ha
  have hbc : b.compareKey ignoreCase c = .eq := by
    rw [compareKey_swap, hn, compareKey_nearest hc]
    rfl
  have hac := transits.eq hab hbc
  rw [compareKey_integers ha hc] at hac
  exact hne (Std.LawfulEqOrd.eq_of_compare hac)

theorem transits_of_not_blurs (h : ¬ Blurs b a c) : Transits ignoreCase a b c := by
  by_cases hints : a.integer? = none ∨ c.integer? = none
  · constructor
    · intro hab hbc
      rw [compareKey_rounded hints]
      exact (Composes.of_compare _ _ _).not_gt (roundedPlace_le hab) (roundedPlace_le hbc)
    · intro hab hbc
      rw [compareKey_rounded hints, roundedPlace_eq hab, roundedPlace_eq hbc]
      exact Std.ReflOrd.compare_self
  · rw [not_or, ← ne_eq, ← ne_eq, Option.ne_none_iff_exists', Option.ne_none_iff_exists'] at hints
    obtain ⟨⟨m, ha⟩, n, hc⟩ := hints
    cases hb : b.integer? with
    | some k =>
      constructor <;> rw [compareKey_integers ha hb, compareKey_integers hb hc,
        compareKey_integers ha hc]
      · exact (Composes.of_compare m k n).not_gt
      · exact Std.TransCmp.eq_trans
    | none =>
      constructor
      · intro hab hbc hac
        -- the float between them would be the nearest one to both
        rw [compareKey_integers ha hc, Int.compare_eq_gt] at hac
        have hca : c.compareKey ignoreCase a ≠ .gt := by
          rw [compareKey_integers hc ha, Int.compare_ne_gt]
          exact Int.le_of_lt hac
        obtain ⟨hab, hbc⟩ := eq_of_cycle (roundedPlace_le hab) (roundedPlace_le hbc)
          (roundedPlace_le hca)
        exact h (blurs_of_roundedPlace ha hc hb (by omega) (Std.LawfulEqOrd.eq_of_compare hab)
          (Std.LawfulEqOrd.eq_of_compare hbc))
      · intro hab hbc
        rw [compareKey_integers ha hc]
        by_cases hne : m = n
        · rw [hne]
          exact Std.ReflOrd.compare_self
        · exact absurd (blurs_of_roundedPlace ha hc hb hne (roundedPlace_eq hab)
            (roundedPlace_eq hbc)) h

/-- The order of keys is total, and transitive but for an integer and a float and a second integer
where the float is the nearest one to both: it equals either, and they differ. One of the two is then
past 2 ^ 53. -/
theorem compareKey_transits_iff (ignoreCase : Bool) (a b c : Value) :
    b.compareKey ignoreCase a = (a.compareKey ignoreCase b).swap ∧
    (Transits ignoreCase a b c ↔ ¬ Blurs b a c) ∧
    (Blurs b a c → ∃ m n, a.integer? = some m ∧ c.integer? = some n ∧
      (2 ^ 53 < m.natAbs ∨ 2 ^ 53 < n.natAbs)) := by
  refine ⟨compareKey_swap ignoreCase a b, ⟨?_, transits_of_not_blurs⟩, ?_⟩
  · exact fun transits blurs => blurs.not_transits transits
  · rintro ⟨m, n, ha, hc, hne, hm, hn⟩
    refine ⟨m, n, ha, hc, ?_⟩
    by_contra hsmall
    rw [not_or, Nat.not_lt, Nat.not_lt] at hsmall
    have hsame : Double.ofInt m = Double.ofInt n := by
      rw [hm] at hn
      exact Value.float.inj hn
    exact hne (Double.ofInt_injective_small hsmall.1 hsmall.2 hsame)

theorem not_transitive : ¬ ∀ a b c : Value, ∀ ignoreCase,
    a.compareKey ignoreCase b = .eq → b.compareKey ignoreCase c = .eq →
      a.compareKey ignoreCase c = .eq := by
  intro h
  have hac := h (.signed 9007199254740992) (.float ⟨0x4340000000000000⟩)
    (.signed 9007199254740993) false (by decide) (by decide)
  revert hac
  decide

end Value
end Isam
