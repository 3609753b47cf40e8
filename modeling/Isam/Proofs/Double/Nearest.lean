import Isam.Double.Basic
import Mathlib.Algebra.Order.Ring.Nat
import Mathlib.Data.Nat.Log
namespace Isam.Double

variable {m n d lo hi : Nat}

theorem le_roundQuotient (h : lo * d ≤ n) (hd : 0 < d) : lo ≤ roundQuotient n d := by
  have hquotient : lo ≤ n / d := (Nat.le_div_iff_mul_le hd).2 h
  unfold roundQuotient
  dsimp only
  split <;> omega

theorem roundQuotient_le (h : n < hi * d) (hd : 0 < d) : roundQuotient n d ≤ hi := by
  have hquotient : n / d < hi := (Nat.div_lt_iff_lt_mul hd).2 h
  unfold roundQuotient
  dsimp only
  split <;> omega

theorem roundQuotient_mono (h : m ≤ n) (hd : 0 < d) : roundQuotient m d ≤ roundQuotient n d := by
  rcases (Nat.div_le_div_right (c := d) h).lt_or_eq with hquotient | hquotient
  · have hm : m < n / d * d := (Nat.div_lt_iff_lt_mul hd).1 hquotient
    exact (roundQuotient_le hm hd).trans (le_roundQuotient (Nat.div_mul_le_self n d) hd)
  · -- the quotients agree, so the remainders are in the order of the numbers
    have hremainder : m % d ≤ n % d := by
      have hm := Nat.div_add_mod m d
      have hn := Nat.div_add_mod n d
      rw [hquotient] at hm
      omega
    simp only [roundQuotient, hquotient, Bool.or_eq_true, decide_eq_true_eq, Bool.and_eq_true,
      beq_iff_eq]
    split <;> split <;> omega

def significand (n : Nat) : Nat := roundQuotient (n <<< (52 - n.log2)) (1 <<< (n.log2 - 52))

def magnitudeOf (n : Nat) : Nat := (n.log2 + 1022) * 0x10000000000000 + significand n

theorem nearestMagnitude_one (hn : n ≠ 0) :
    nearestMagnitude n 1 = min (magnitudeOf n) infinityMagnitude := by
  have hexponent : binaryExponent n 1 = n.log2 := by
    have hlog : Nat.log2 1 = 0 := rfl
    have hself := Nat.log2_self_le hn
    unfold binaryExponent
    dsimp only
    rw [hlog, if_pos]
    · omega
    · simpa [Nat.shiftLeft_eq] using hself
  have hmax : max ((n.log2 : Int) - 52) (-1074) = n.log2 - 52 := by omega
  have hdown : (-((n.log2 : Int) - 52)).toNat = 52 - n.log2 := by omega
  have hup : ((n.log2 : Int) - 52).toNat = n.log2 - 52 := by omega
  have hbias : ((n.log2 : Int) - 52 + 1074).toNat = n.log2 + 1022 := by omega
  rw [nearestMagnitude, if_neg hn]
  dsimp only
  rw [hexponent, hmax, hdown, hup, hbias]
  rfl

theorem shifted_bounds (hn : n ≠ 0) :
    2 ^ 52 * 1 <<< (n.log2 - 52) ≤ n <<< (52 - n.log2) ∧
      n <<< (52 - n.log2) < 2 ^ 53 * 1 <<< (n.log2 - 52) := by
  have hlow := Nat.log2_self_le hn
  have hhigh := Nat.lt_log2_self (n := n)
  have hpower : 2 ^ 52 * 2 ^ (n.log2 - 52) = 2 ^ n.log2 * 2 ^ (52 - n.log2) := by
    rw [← Nat.pow_add, ← Nat.pow_add]
    congr 1
    omega
  have hpower' : 2 ^ 53 * 2 ^ (n.log2 - 52) = 2 ^ (n.log2 + 1) * 2 ^ (52 - n.log2) := by
    rw [← Nat.pow_add, ← Nat.pow_add]
    congr 1
    omega
  rw [Nat.shiftLeft_eq, Nat.shiftLeft_eq, Nat.one_mul, hpower, hpower']
  exact ⟨Nat.mul_le_mul_right _ hlow, Nat.mul_lt_mul_of_pos_right hhigh (Nat.two_pow_pos _)⟩

theorem shifted_pos (k : Nat) : 0 < 1 <<< k := by
  rw [Nat.shiftLeft_eq, Nat.one_mul]
  exact Nat.two_pow_pos k

theorem le_significand (hn : n ≠ 0) : 2 ^ 52 ≤ significand n :=
  le_roundQuotient (shifted_bounds hn).1 (shifted_pos _)

theorem significand_le (hn : n ≠ 0) : significand n ≤ 2 ^ 53 :=
  roundQuotient_le (shifted_bounds hn).2 (shifted_pos _)

theorem log2_mono (hm : m ≠ 0) (h : m ≤ n) : m.log2 ≤ n.log2 :=
  (Nat.le_log2 (by omega)).2 ((Nat.log2_self_le hm).trans h)

theorem magnitudeOf_mono (hm : m ≠ 0) (h : m ≤ n) : magnitudeOf m ≤ magnitudeOf n := by
  have hn : n ≠ 0 := by omega
  unfold magnitudeOf
  rcases (log2_mono hm h).lt_or_eq with hlog | hlog
  · have hhigh := significand_le hm
    have hlow := le_significand hn
    omega
  · have hsignificand : significand m ≤ significand n := by
      unfold significand
      rw [hlog]
      apply roundQuotient_mono _ (shifted_pos _)
      rw [Nat.shiftLeft_eq, Nat.shiftLeft_eq]
      exact Nat.mul_le_mul_right _ h
    rw [hlog]
    omega

theorem nearestMagnitude_mono (h : m ≤ n) : nearestMagnitude m 1 ≤ nearestMagnitude n 1 := by
  by_cases hm : m = 0
  · subst hm
    exact Nat.zero_le _
  · have hmagnitude := magnitudeOf_mono hm h
    rw [nearestMagnitude_one hm, nearestMagnitude_one (by omega)]
    omega

theorem significand_small (hlog : n.log2 ≤ 52) : significand n = n * 2 ^ (52 - n.log2) := by
  have hzero : n.log2 - 52 = 0 := by omega
  simp [significand, roundQuotient, hzero, Nat.shiftLeft_eq, Nat.mod_one]

theorem nearestMagnitude_lt (h : m < n) (hn : n ≤ 2 ^ 53) :
    nearestMagnitude m 1 < nearestMagnitude n 1 := by
  have hn0 : n ≠ 0 := by omega
  have hlog' : n.log2 < 54 := (Nat.log2_lt hn0).2 (by omega)
  have hlow := le_significand hn0
  have hhigh := significand_le hn0
  rw [nearestMagnitude_one hn0]
  by_cases hm : m = 0
  · subst hm
    have hzero : nearestMagnitude 0 1 = 0 := rfl
    rw [hzero, magnitudeOf, infinityMagnitude]
    omega
  · rw [nearestMagnitude_one hm]
    have hlog : m.log2 < 53 := (Nat.log2_lt hm).2 (by omega)
    have hbelow : significand m < 2 ^ 53 := by
      have hzero : m.log2 - 52 = 0 := by omega
      have hbounds := (shifted_bounds hm).2
      rw [hzero, Nat.shiftLeft_eq] at hbounds
      rw [significand_small (by omega)]
      simpa using hbounds
    have hless : magnitudeOf m < magnitudeOf n := by
      unfold magnitudeOf
      rcases (log2_mono hm h.le).lt_or_eq with hlt | heq
      · omega
      · rw [significand_small (n := m) (by omega), significand_small (n := n) (by omega), heq]
        have hscaled := Nat.mul_lt_mul_of_pos_right h (Nat.two_pow_pos (52 - n.log2))
        omega
    have hfinite : magnitudeOf m < infinityMagnitude := by
      rw [magnitudeOf, infinityMagnitude]
      omega
    rw [Nat.min_eq_left hfinite.le]
    exact lt_min hless hfinite

theorem nearestMagnitude_le (n : Nat) : nearestMagnitude n 1 ≤ infinityMagnitude := by
  by_cases hn : n = 0
  · subst hn
    exact Nat.zero_le _
  · rw [nearestMagnitude_one hn]
    exact Nat.min_le_right _ _

theorem position_ofInt (n : Int) : (ofInt n).position =
    if n < 0 then -1 - (nearestMagnitude n.natAbs 1 : Int) else nearestMagnitude n.natAbs 1 := by
  have hbound := nearestMagnitude_le n.natAbs
  rw [infinityMagnitude] at hbound
  by_cases hn : n < 0
  · simp [ofInt, signed, hn, position, isNegative, magnitude, ofNat64]
    omega
  · simp [ofInt, signed, hn, position, isNegative, magnitude, ofNat64]
    omega

theorem ofInt_injective_small {m n : Int} (hm : m.natAbs ≤ 2 ^ 53) (hn : n.natAbs ≤ 2 ^ 53)
    (h : ofInt m = ofInt n) : m = n := by
  have hposition := congrArg position h
  rw [position_ofInt, position_ofInt] at hposition
  have habs : m.natAbs = n.natAbs := by
    rcases Nat.lt_trichotomy m.natAbs n.natAbs with hlt | heq | hgt
    · have hmagnitude := nearestMagnitude_lt hlt hn
      split at hposition <;> split at hposition <;> omega
    · exact heq
    · have hmagnitude := nearestMagnitude_lt hgt hm
      split at hposition <;> split at hposition <;> omega
  split at hposition <;> split at hposition <;> omega

theorem position_ofInt_mono {m n : Int} (h : m ≤ n) : (ofInt m).position ≤ (ofInt n).position := by
  rw [position_ofInt, position_ofInt]
  split <;> split
  · have hmagnitude := nearestMagnitude_mono (m := n.natAbs) (n := m.natAbs) (by omega)
    omega
  · omega
  · omega
  · have hmagnitude := nearestMagnitude_mono (m := m.natAbs) (n := n.natAbs) (by omega)
    omega

end Isam.Double
