import Isam.Text.Printable
import Isam.Text.Basic
import Mathlib.Data.List.Induction
namespace Isam.Text

variable {cs : List Char} {c : Char} {n width : Nat} {m k : Int}

def Numeral (n : Nat) (cs : List Char) : Prop := (∀ c ∈ cs, isDigit c = true) ∧ ofDigits cs = n

theorem toNat_digitChar (n : Nat) : (digitChar n).toNat = 48 + n % 10 := by
  have hdigits : ∀ d < 10, (Char.ofNat (48 + d)).toNat = 48 + d := by decide
  exact hdigits _ (Nat.mod_lt n (by decide))

theorem isDigit_digitChar (n : Nat) : isDigit (digitChar n) = true := by
  simp only [isDigit, toNat_digitChar, Bool.and_eq_true, decide_eq_true_eq]
  omega

theorem digitValue_digitChar (n : Nat) : digitValue (digitChar n) = n % 10 := by
  rw [digitValue, toNat_digitChar]
  omega

theorem digitValue_lt (h : isDigit c = true) : digitValue c < 10 := by
  simp only [isDigit, Bool.and_eq_true, decide_eq_true_eq] at h
  rw [digitValue]
  omega

theorem digitChar_digitValue (h : isDigit c = true) (n : Nat) :
    digitChar (10 * n + digitValue c) = c := by
  have hlt := digitValue_lt h
  simp only [isDigit, Bool.and_eq_true, decide_eq_true_eq] at h
  rw [digitChar, Nat.mul_add_mod, Nat.mod_eq_of_lt hlt, digitValue,
    show 48 + (c.toNat - 48) = c.toNat by omega]
  exact Char.ofNat_toNat c

theorem ofDigits_append (cs : List Char) (c : Char) :
    ofDigits (cs ++ [c]) = 10 * ofDigits cs + digitValue c := by
  simp only [ofDigits, List.foldl_append, List.foldl_cons, List.foldl_nil]

theorem ofDigits_places (width n : Nat) : ofDigits (places width n) = n % tenTo width := by
  induction width generalizing n with
  | zero => exact (Nat.mod_one n).symm
  | succ width ih =>
    rw [places, ofDigits_append, ih, digitValue_digitChar, tenTo, tenTo, Nat.pow_eq, Nat.pow_eq,
      Nat.pow_succ', Nat.mod_mul]
    omega

theorem isDigit_of_mem_places (h : c ∈ places width n) : isDigit c = true := by
  induction width generalizing n with
  | zero => cases h
  | succ width ih =>
    rcases List.mem_append.1 h with h | h
    · exact ih h
    · rw [List.mem_singleton.1 h]
      exact isDigit_digitChar n

theorem places_ofDigits (h : ∀ c ∈ cs, isDigit c = true) :
    ofDigits cs < tenTo cs.length ∧ places cs.length (ofDigits cs) = cs := by
  induction cs using List.reverseRec with
  | nil => exact ⟨Nat.one_pos, rfl⟩
  | append_singleton cs c ih =>
    obtain ⟨hlt, hplaces⟩ := ih fun c hc => h c (List.mem_append_left _ hc)
    have hc : isDigit c = true := h c (by simp)
    have hvalue := digitValue_lt hc
    rw [List.length_append, List.length_singleton, ofDigits_append]
    constructor
    · simp only [tenTo, Nat.pow_eq, Nat.pow_succ] at hlt ⊢
      omega
    · rw [places, digitChar_digitValue hc,
        show (10 * ofDigits cs + digitValue c) / 10 = ofDigits cs by omega, hplaces]

theorem numeral_iff :
    (cs.length = width ∧ Numeral n cs) ↔ n < tenTo width ∧ paddedNat width n = cs := by
  constructor
  · rintro ⟨rfl, hdigits, rfl⟩
    obtain ⟨hlt, hplaces⟩ := places_ofDigits hdigits
    exact ⟨hlt, by rw [paddedNat, if_pos hlt, hplaces]⟩
  · rintro ⟨hlt, rfl⟩
    rw [paddedNat, if_pos hlt]
    refine ⟨places_length width n, fun c hc => isDigit_of_mem_places hc, ?_⟩
    rw [ofDigits_places, Nat.mod_eq_of_lt hlt]

theorem isDigit_of_mem_paddedNat (h : c ∈ paddedNat width n) : isDigit c = true := by
  unfold paddedNat at h
  split at h
  · exact isDigit_of_mem_places h
  · have hdigit := Nat.isDigit_of_mem_toDigits (by decide) (by decide) h
    simp only [Char.isDigit, Bool.and_eq_true, decide_eq_true_eq, ge_iff_le,
      UInt32.le_iff_toNat_le] at hdigit
    simp only [isDigit, Bool.and_eq_true, decide_eq_true_eq]
    exact hdigit

theorem ofDigits_paddedNat (width n : Nat) : ofDigits (paddedNat width n) = n := by
  unfold paddedNat
  split
  · rename_i h
    rw [ofDigits_places, Nat.mod_eq_of_lt h]
  · exact Nat.ofDigitChars_ten_toDigits

theorem paddedNat_ne_minus (width n : Nat) (cs : List Char) : paddedNat width n ≠ '-' :: cs := by
  intro h
  have hminus : '-' ∈ paddedNat width n := h ▸ List.mem_cons_self
  exact absurd (isDigit_of_mem_paddedNat hminus) (by decide)

theorem padded_inj : padded width m = padded width k ↔ m = k := by
  refine ⟨fun h => ?_, congrArg _⟩
  cases m with
  | ofNat m =>
    cases k with
    | ofNat k =>
      have hvalue := congrArg ofDigits h
      simp only [padded, ofDigits_paddedNat] at hvalue
      rw [hvalue]
    | negSucc k => exact absurd h (paddedNat_ne_minus _ _ _)
  | negSucc m =>
    cases k with
    | ofNat k => exact absurd h.symm (paddedNat_ne_minus _ _ _)
    | negSucc k =>
      have hvalue := congrArg ofDigits (List.cons.inj h).2
      simp only [ofDigits_paddedNat] at hvalue
      rw [Nat.succ.inj hvalue]

theorem padded_length (h : n < tenTo width) : (padded width n).length = width := by
  rw [padded_natCast, paddedNat, if_pos h, places_length]

theorem padded_append_inj {a b : Nat} {as bs : List Char} (ha : a < tenTo width)
    (hb : b < tenTo width) :
    padded width a ++ as = padded width b ++ bs ↔ a = b ∧ as = bs := by
  constructor
  · intro h
    obtain ⟨hnumber, hrest⟩ := List.append_inj h (by rw [padded_length ha, padded_length hb])
    exact ⟨Int.ofNat_inj.1 (padded_inj.1 hnumber), hrest⟩
  · rintro ⟨rfl, rfl⟩
    rfl

theorem append_padded_inj {a b : Nat} {as bs : List Char} (ha : a < tenTo width)
    (hb : b < tenTo width) :
    as ++ padded width a = bs ++ padded width b ↔ as = bs ∧ a = b := by
  constructor
  · intro h
    obtain ⟨hrest, hnumber⟩ := List.append_inj' h (by rw [padded_length ha, padded_length hb])
    exact ⟨hrest, Int.ofNat_inj.1 (padded_inj.1 hnumber)⟩
  · rintro ⟨rfl, rfl⟩
    rfl

theorem isBlank_of_isDigit (h : isDigit c = true) : isBlank c = false := by
  simp only [isDigit, Bool.and_eq_true, decide_eq_true_eq] at h
  simp only [isBlank, Bool.or_eq_false_iff, Bool.and_eq_false_iff, decide_eq_false_iff_not,
    beq_eq_false_iff_ne]
  omega

theorem isBlank_of_mem_padded (h : c ∈ padded width m) : isBlank c = false := by
  cases m with
  | ofNat m => exact isBlank_of_isDigit (isDigit_of_mem_paddedNat h)
  | negSucc m =>
    rcases List.mem_cons.1 h with rfl | h
    · decide
    · exact isBlank_of_isDigit (isDigit_of_mem_paddedNat h)

theorem dropWhile_eq_self (h : ∀ c ∈ cs, isBlank c = false) : cs.dropWhile isBlank = cs := by
  cases cs with
  | nil => rfl
  | cons c cs => rw [List.dropWhile_cons_of_neg (by simp [h c])]

theorem trim_eq_self (h : ∀ c ∈ cs, isBlank c = false) : trim cs = cs := by
  rw [trim, dropWhile_eq_self h, dropWhile_eq_self fun c hc => h c (List.mem_reverse.1 hc),
    List.reverse_reverse]

end Isam.Text
