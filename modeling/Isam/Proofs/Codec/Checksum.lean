import Isam.Codec.TableFile
import Mathlib.Algebra.Group.Nat.Defs
namespace Isam.Codec

variable {r s : UInt32} {bs cs : List UInt8}

theorem lowBit_eq_one : r &&& 1 = 1 ↔ r.toNat % 2 = 1 := by
  rw [← UInt32.toNat_inj, UInt32.toNat_and, UInt32.toNat_one, Nat.and_one_is_mod]

theorem shiftBit_xor (r s : UInt32) : shiftBit (r ^^^ s) = shiftBit r ^^^ shiftBit s := by
  have hg (a b : UInt32) : a ^^^ b ^^^ generator = a ^^^ generator ^^^ b := by ac_rfl
  have hgg (a b : UInt32) : a ^^^ b = a ^^^ generator ^^^ (b ^^^ generator) := by
    rw [← UInt32.xor_assoc, ← hg, UInt32.xor_assoc (a ^^^ b), UInt32.xor_self, UInt32.xor_zero]
  have hodd : (r ^^^ s) &&& 1 = 1 ↔ ¬(r &&& 1 = 1 ↔ s &&& 1 = 1) := by
    simp only [lowBit_eq_one, UInt32.toNat_xor, Nat.xor_mod_two_eq_one]
  simp only [shiftBit, hodd, UInt32.shiftRight_xor]
  by_cases hr : r &&& 1 = 1 <;> by_cases hs : s &&& 1 = 1 <;> simp only [hr, hs]
  · exact hgg _ _
  · exact hg _ _
  · exact UInt32.xor_assoc _ _ _
  · rfl

theorem toNat_shiftRight_one (r : UInt32) : (r >>> 1).toNat = r.toNat / 2 := by
  rw [UInt32.toNat_shiftRight]
  rfl

theorem shiftBit_even (h : r.toNat % 2 = 0) : (shiftBit r).toNat = r.toNat / 2 := by
  have hodd : ¬ r &&& 1 = 1 := by
    rw [lowBit_eq_one]
    omega
  rw [shiftBit, if_neg hodd, toNat_shiftRight_one]

theorem eq_zero_of_shiftBit (h : shiftBit r = 0) : r = 0 := by
  have hlt := r.toNat_lt
  unfold shiftBit at h
  split at h
  · -- the highest bit of the generator is set, and that of a shifted word is not
    have hr := congrArg UInt32.toNat (UInt32.xor_eq_zero_iff.1 h)
    rw [toNat_shiftRight_one, show generator.toNat = 3988292384 from rfl] at hr
    omega
  · rename_i hodd
    have hr := congrArg UInt32.toNat h
    rw [toNat_shiftRight_one, UInt32.toNat_zero] at hr
    rw [lowBit_eq_one] at hodd
    apply UInt32.toNat_inj.1
    rw [UInt32.toNat_zero]
    omega

theorem shiftBits_xor (n : Nat) (r s : UInt32) :
    shiftBits n (r ^^^ s) = shiftBits n r ^^^ shiftBits n s := by
  induction n generalizing r s with
  | zero => rfl
  | succ n ih => rw [shiftBits, shiftBits, shiftBits, shiftBit_xor, ih]

theorem shiftBits_add (m n : Nat) (r : UInt32) :
    shiftBits (m + n) r = shiftBits n (shiftBits m r) := by
  induction m generalizing r with
  | zero => rw [Nat.zero_add, shiftBits]
  | succ m ih => rw [Nat.succ_add, shiftBits, shiftBits, ih]

theorem eq_zero_of_shiftBits {n : Nat} (h : shiftBits n r = 0) : r = 0 := by
  induction n generalizing r with
  | zero => exact h
  | succ n ih => exact eq_zero_of_shiftBit (ih h)

theorem shiftBits_injective {n : Nat} (h : shiftBits n r = shiftBits n s) : r = s := by
  apply UInt32.xor_eq_zero_iff.1
  apply eq_zero_of_shiftBits (n := n)
  rw [shiftBits_xor, h, UInt32.xor_self]

theorem shiftBits_of_dvd {n : Nat} (h : 2 ^ n ∣ r.toNat) :
    (shiftBits n r).toNat = r.toNat / 2 ^ n := by
  induction n generalizing r with
  | zero => rw [shiftBits, Nat.pow_zero, Nat.div_one]
  | succ n ih =>
    rw [Nat.pow_succ'] at h
    have heven : r.toNat % 2 = 0 := Nat.mod_eq_zero_of_dvd (Nat.dvd_trans (Nat.dvd_mul_right 2 _) h)
    have hhalf : (shiftBit r).toNat = r.toNat / 2 := shiftBit_even heven
    have hdvd : 2 ^ n ∣ (shiftBit r).toNat := by
      rw [hhalf]
      exact Nat.dvd_div_of_mul_dvd h
    rw [shiftBits, ih hdvd, hhalf, Nat.div_div_eq_div_mul, Nat.pow_succ']

theorem foldl_shiftByte_injective (h : bs.foldl shiftByte r = bs.foldl shiftByte s) : r = s := by
  induction bs generalizing r s with
  | nil => exact h
  | cons b bs ih =>
    have hstep : shiftByte r b = shiftByte s b := ih h
    exact (UInt32.xor_left_inj _).1 (shiftBits_injective hstep)

def packed : List UInt8 → UInt32
  | [] => 0
  | b :: bs => b.toUInt32 ^^^ packed bs <<< 8

theorem toNat_shiftLeft_eight (h : r.toNat < 2 ^ 24) : (r <<< 8).toNat = r.toNat * 256 := by
  rw [UInt32.toNat_shiftLeft, show (8 : UInt32).toNat % 32 = 8 from rfl, Nat.shiftLeft_eq]
  omega

theorem packed_lt (h : bs.length ≤ 4) : (packed bs).toNat < 2 ^ (8 * bs.length) := by
  induction bs with
  | nil => decide
  | cons b bs ih =>
    have hlen : bs.length ≤ 3 := Nat.le_of_succ_le_succ h
    have hbs := ih (by omega)
    have hlow : (packed bs).toNat < 2 ^ 24 :=
      Nat.lt_of_lt_of_le hbs (Nat.pow_le_pow_right (by decide) (by omega))
    have hb : b.toUInt32.toNat < 2 ^ (8 * (bs.length + 1)) := by
      rw [UInt8.toNat_toUInt32]
      exact Nat.lt_of_lt_of_le b.toNat_lt (Nat.pow_le_pow_right (by decide) (by omega))
    rw [packed, UInt32.toNat_xor]
    apply Nat.xor_lt_two_pow hb
    rw [toNat_shiftLeft_eight hlow, Nat.mul_add, Nat.pow_add]
    exact Nat.mul_lt_mul_of_pos_right hbs (by decide)

theorem packed_low (h : bs.length ≤ 3) : (packed bs).toNat < 2 ^ 24 :=
  Nat.lt_of_lt_of_le (packed_lt (by omega)) (Nat.pow_le_pow_right (by decide) (by omega))

theorem shiftBits_shiftLeft (h : r.toNat < 2 ^ 24) : shiftBits 8 (r <<< 8) = r := by
  have hr := toNat_shiftLeft_eight h
  apply UInt32.toNat_inj.1
  rw [shiftBits_of_dvd (hr ▸ Nat.dvd_mul_left _ _), hr]
  exact Nat.mul_div_cancel _ (by decide)

theorem foldl_shiftByte (h : bs.length ≤ 4) :
    bs.foldl shiftByte r = shiftBits (8 * bs.length) (r ^^^ packed bs) := by
  induction bs generalizing r with
  | nil => simp [packed, shiftBits]
  | cons b bs ih =>
    have hlen : bs.length ≤ 3 := Nat.le_of_succ_le_succ h
    rw [List.foldl_cons, ih (by omega), List.length_cons, Nat.mul_succ, Nat.add_comm, shiftBits_add,
      packed, ← UInt32.xor_assoc, shiftBits_xor 8, shiftBits_shiftLeft (packed_low hlen), shiftByte]

theorem toUInt8_shiftLeft_eight (r : UInt32) : (r <<< 8).toUInt8 = 0 := by
  apply UInt8.toNat_inj.1
  rw [UInt32.toNat_toUInt8, UInt32.toNat_shiftLeft, show (8 : UInt32).toNat % 32 = 8 from rfl,
    Nat.shiftLeft_eq, UInt8.toNat_zero]
  omega

theorem packed_injective (hlen : bs.length = cs.length) (h : bs.length ≤ 4)
    (heq : packed bs = packed cs) : bs = cs := by
  induction bs generalizing cs with
  | nil => rw [List.eq_nil_of_length_eq_zero hlen.symm]
  | cons b bs ih =>
    obtain ⟨c, cs, rfl⟩ := List.exists_cons_of_length_eq_add_one hlen.symm
    have hbs : bs.length ≤ 3 := Nat.le_of_succ_le_succ h
    have hcs : bs.length = cs.length := Nat.succ.inj hlen
    have hfirst : b = c := by
      have hlow := congrArg UInt32.toUInt8 heq
      simpa [packed, UInt32.toUInt8_xor, toUInt8_shiftLeft_eight] using hlow
    have hrest : packed bs <<< 8 = packed cs <<< 8 := by
      rw [packed, packed, hfirst] at heq
      exact (UInt32.xor_right_inj _).1 heq
    have hnum := congrArg UInt32.toNat hrest
    rw [toNat_shiftLeft_eight (packed_low hbs), toNat_shiftLeft_eight (packed_low (hcs ▸ hbs))] at hnum
    rw [hfirst, ih hcs (by omega) (UInt32.toNat_inj.1 (by omega))]

theorem checksum_ne {front old new back : List UInt8} (hlen : old.length = new.length)
    (h : old.length ≤ 4) (hne : old ≠ new) :
    checksum (front ++ (old ++ back)) ≠ checksum (front ++ (new ++ back)) := by
  intro heq
  apply hne
  simp only [checksum, List.foldl_append] at heq
  have hfold := foldl_shiftByte_injective ((UInt32.xor_left_inj _).1 heq)
  have hold (r : UInt32) : old.foldl shiftByte r = shiftBits (8 * old.length) (r ^^^ packed old) :=
    foldl_shiftByte h
  have hnew (r : UInt32) : new.foldl shiftByte r = shiftBits (8 * new.length) (r ^^^ packed new) :=
    foldl_shiftByte (hlen ▸ h)
  rw [hold, hnew, ← hlen] at hfold
  exact packed_injective hlen h ((UInt32.xor_right_inj _).1 (shiftBits_injective hfold))

end Isam.Codec
