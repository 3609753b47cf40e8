import Isam.Calendar.Date
import Mathlib.Data.Int.Init
import Mathlib.Tactic.IntervalCases
namespace Isam

def IsLeap (year : Int) : Prop := 4 ∣ year ∧ (100 ∣ year → 400 ∣ year)

instance (year : Int) : Decidable (IsLeap year) := inferInstanceAs (Decidable (_ ∧ _))

def monthLengths (year : Int) : List Nat :=
  [31, if IsLeap year then 29 else 28, 31, 30, 31, 30, 31, 31, 30, 31, 30, 31]

theorem isLeapYear_iff (year : Int) : isLeapYear year = true ↔ IsLeap year := by
  simp only [isLeapYear, IsLeap, Bool.or_eq_true, Bool.and_eq_true, beq_iff_eq, bne_iff_ne]
  omega

namespace Civil

def InCalendar (c : Civil) : Prop :=
  1 ≤ c.month ∧ 1 ≤ c.day ∧ c.day ≤ (monthLengths c.year).getD (c.month - 1) 0

instance (c : Civil) : Decidable c.InCalendar := inferInstanceAs (Decidable (_ ∧ _))

def next (c : Civil) : Civil :=
  if InCalendar ⟨c.year, c.month, c.day + 1⟩ then ⟨c.year, c.month, c.day + 1⟩
  else if c.month < 12 then ⟨c.year, c.month + 1, 1⟩
  else ⟨c.year + 1, 1, 1⟩

def Before (c d : Civil) : Prop :=
  c.year < d.year ∨ (c.year = d.year ∧ (c.month < d.month ∨ (c.month = d.month ∧ c.day < d.day)))

variable {c d : Civil} {n : Int}

theorem IsValid.month (valid : c.IsValid) : 1 ≤ c.month ∧ c.month ≤ 12 := by
  obtain ⟨hday, hlength⟩ := valid
  unfold daysInMonth at hlength
  split at hlength <;> omega

theorem inCalendar_iff : c.InCalendar ↔ c.IsValid := by
  obtain ⟨year, month, day⟩ := c
  by_cases hmonth : 1 ≤ month ∧ month ≤ 12
  · obtain ⟨hlow, hhigh⟩ := hmonth
    simp only [InCalendar, IsValid, daysInMonth, isLeapYear_iff]
    interval_cases month <;> simp [monthLengths]
  · constructor
    · rintro ⟨hlow, hday, hlength⟩
      dsimp only at hlow hday hlength
      have hlarge : (monthLengths year).length ≤ month - 1 := by
        simp only [monthLengths, List.length_cons, List.length_nil]
        omega
      rw [List.getD_eq_getElem?_getD, List.getElem?_eq_none hlarge, Option.getD_none] at hlength
      omega
    · exact fun valid => absurd valid.month hmonth

/-! Days are counted from the first of March of year 0. Years that begin with March end with the day
that comes and goes, and their months follow one rule. -/

def yearStart (y : Int) : Int := 365 * y + y / 4 - y / 100 + y / 400

def monthStart (m : Int) : Int := yearStart (m / 12) + (153 * (m % 12) + 2) / 5

def months (c : Civil) : Int := 12 * c.year + c.month - 3

theorem dayNumber_eq (hmonth : 1 ≤ c.month ∧ c.month ≤ 12) :
    c.dayNumber = monthStart c.months + c.day - 306 := by
  have hyear : c.months / 12 = if c.month ≤ 2 then c.year - 1 else c.year := by
    unfold months
    split <;> omega
  have hmonth : c.months % 12 = ((c.month : Int) + 9) % 12 := by
    unfold months
    omega
  simp only [dayNumber, monthStart, yearStart, hyear, hmonth]
  generalize (if c.month ≤ 2 then c.year - 1 else c.year) = y
  omega

theorem yearStart_succ (y : Int) :
    yearStart (y + 1) = yearStart y + 337 + daysInMonth (y + 1) 2 := by
  have hleap := isLeapYear_iff (y + 1)
  simp only [yearStart, daysInMonth, IsLeap] at hleap ⊢
  split <;> simp_all <;> omega

theorem daysInMonth_bounds (year : Int) {month : Nat} (hmonth : 1 ≤ month ∧ month ≤ 12) :
    1 ≤ daysInMonth year month ∧ daysInMonth year month ≤ 31 := by
  obtain ⟨hlow, hhigh⟩ := hmonth
  by_cases hleap : isLeapYear year = true <;> interval_cases month <;> simp [daysInMonth, hleap]

theorem monthStart_of_year {y m : Int} (hm : 0 ≤ m ∧ m ≤ 11) :
    monthStart (12 * y + m) = yearStart y + (153 * m + 2) / 5 := by
  have hyear : (12 * y + m) / 12 = y := by omega
  have hmonth : (12 * y + m) % 12 = m := by omega
  rw [monthStart, hyear, hmonth]

theorem monthStart_succ (hmonth : 1 ≤ c.month ∧ c.month ≤ 12) :
    monthStart (c.months + 1) = monthStart c.months + daysInMonth c.year c.month := by
  obtain ⟨year, month, day⟩ := c
  obtain ⟨hlow, hhigh⟩ := hmonth
  dsimp only at hlow hhigh
  by_cases hfebruary : month = 2
  · subst hfebruary
    have hyear := yearStart_succ (year - 1)
    rw [Int.sub_add_cancel] at hyear
    have hthis : months ⟨year, 2, day⟩ = 12 * (year - 1) + 11 := by
      simp only [months]
      omega
    have hnext : months ⟨year, 2, day⟩ + 1 = 12 * year + 0 := by
      simp only [months]
      omega
    rw [hnext, hthis, monthStart_of_year (by decide), monthStart_of_year (by decide), hyear]
    dsimp only
    omega
  · have hyear : (months ⟨year, month, day⟩ + 1) / 12 = months ⟨year, month, day⟩ / 12 := by
      simp only [months]
      omega
    simp only [monthStart, hyear]
    rw [Int.add_assoc]
    congr 1
    interval_cases month <;> simp only [months, daysInMonth] <;> omega

theorem monthStart_lt_succ (m : Int) : monthStart m < monthStart (m + 1) := by
  let c : Civil := ⟨(m + 2) / 12, ((m + 2) % 12 + 1).toNat, 1⟩
  have hmonths : c.months = m := by
    simp only [months, c]
    omega
  have hmonth : 1 ≤ c.month ∧ c.month ≤ 12 := by
    simp only [c]
    omega
  have hsucc := monthStart_succ hmonth
  rw [hmonths] at hsucc
  have hpos := (daysInMonth_bounds c.year hmonth).1
  omega

theorem monthStart_mono {m k : Int} (h : m ≤ k) : monthStart m ≤ monthStart k := by
  induction k, h using Int.leInduction with
  | base => exact Int.le_refl _
  | succ k _ ih => exact ih.trans (Int.le_of_lt (monthStart_lt_succ k))

theorem dayNumber_lt (hc : c.IsValid) (hd : d.IsValid) (h : c.months < d.months) :
    c.dayNumber < d.dayNumber := by
  have hstart := monthStart_mono (Int.add_one_le_of_lt h)
  rw [monthStart_succ hc.month] at hstart
  rw [dayNumber_eq hc.month, dayNumber_eq hd.month]
  have hlast := hc.2
  have hfirst := hd.1
  omega

theorem before_iff (hc : c.IsValid) (hd : d.IsValid) : c.Before d ↔
    c.months < d.months ∨ (c.months = d.months ∧ c.day < d.day) := by
  have hcmonth := hc.month
  have hdmonth := hd.month
  unfold Before months
  omega

theorem dayNumber_lt_of_before (hc : c.IsValid) (hd : d.IsValid) (h : c.Before d) :
    c.dayNumber < d.dayNumber := by
  rcases (before_iff hc hd).1 h with hlt | ⟨heq, hday⟩
  · exact dayNumber_lt hc hd hlt
  · rw [dayNumber_eq hc.month, dayNumber_eq hd.month, heq]
    omega

theorem before_or (c d : Civil) : c.Before d ∨ c = d ∨ d.Before c := by
  obtain ⟨year, month, day⟩ := c
  obtain ⟨year', month', day'⟩ := d
  simp only [Before, Civil.mk.injEq]
  omega

theorem dayNumber_lt_iff (hc : c.IsValid) (hd : d.IsValid) :
    c.dayNumber < d.dayNumber ↔ c.Before d := by
  refine ⟨fun h => ?_, dayNumber_lt_of_before hc hd⟩
  rcases before_or c d with hbefore | rfl | hafter
  · exact hbefore
  · omega
  · have hlt := dayNumber_lt_of_before hd hc hafter
    omega

theorem dayNumber_inj (hc : c.IsValid) (hd : d.IsValid) : c.dayNumber = d.dayNumber ↔ c = d := by
  refine ⟨fun h => ?_, congrArg _⟩
  rcases before_or c d with hbefore | heq | hafter
  · have hlt := dayNumber_lt_of_before hc hd hbefore
    omega
  · exact heq
  · have hlt := dayNumber_lt_of_before hd hc hafter
    omega

/-! The day with a number. -/

theorem yearOfEra_eq {e k f j r : Int} (he : e = 36524 * k + 1461 * f + 365 * j + r)
    (hk : 0 ≤ k ∧ k ≤ 3) (hf : 0 ≤ f ∧ f ≤ 24) (hj : 0 ≤ j ∧ j ≤ 3) (hr : 0 ≤ r ∧ r ≤ 364) :
    (e - e / 1460 + e / 36524 - e / 146096) / 365 = 100 * k + 4 * f + j := by
  have hcentury : e / 36524 = k := by omega
  have hera : e / 146096 = 0 := by omega
  have hfours : e / 1460 = 25 * k + f ∨ e / 1460 = 25 * k + f + 1 := by omega
  rw [hcentury, hera]
  rcases hfours with hfours | hfours <;> rw [hfours] <;> omega

theorem yearOfEra_leapDay {e k f : Int} (he : e = 36524 * k + 1461 * f + 1460)
    (hk : 0 ≤ k ∧ k ≤ 3) (hf : 0 ≤ f ∧ f ≤ 23) :
    (e - e / 1460 + e / 36524 - e / 146096) / 365 = 100 * k + 4 * f + 3 := by
  have hcentury : e / 36524 = k := by omega
  have hera : e / 146096 = 0 := by omega
  rw [hcentury, hera]
  omega

theorem yearStart_of_era {k f j : Int} (hk : 0 ≤ k ∧ k ≤ 3) (hf : 0 ≤ f ∧ f ≤ 24)
    (hj : 0 ≤ j ∧ j ≤ 3) : yearStart (100 * k + 4 * f + j) = 36524 * k + 1461 * f + 365 * j := by
  have hfours : (100 * k + 4 * f + j) / 4 = 25 * k + f := by omega
  have hcentury : (100 * k + 4 * f + j) / 100 = k := by omega
  have hera : (100 * k + 4 * f + j) / 400 = 0 := by omega
  rw [yearStart, hfours, hcentury, hera]
  omega

theorem yearStart_succ_bounds (y : Int) :
    yearStart y + 365 ≤ yearStart (y + 1) ∧ yearStart (y + 1) ≤ yearStart y + 366 := by
  rw [yearStart_succ]
  simp only [daysInMonth]
  split <;> omega

theorem yearOfEra_bounds {e y : Int} (hlow : 0 ≤ e) (hhigh : e < 146097)
    (hy : y = (e - e / 1460 + e / 36524 - e / 146096) / 365) :
    0 ≤ y ∧ y ≤ 399 ∧ yearStart y ≤ e ∧ e < yearStart (y + 1) := by
  by_cases hlast : e = 146096
  · unfold yearStart
    omega
  obtain ⟨k, hk⟩ : ∃ k, k = e / 36524 := ⟨_, rfl⟩
  obtain ⟨f, hf⟩ : ∃ f, f = e % 36524 / 1461 := ⟨_, rfl⟩
  obtain ⟨q, hq⟩ : ∃ q, q = e % 36524 % 1461 := ⟨_, rfl⟩
  have hkf : (0 ≤ k ∧ k ≤ 3) ∧ 0 ≤ f ∧ f ≤ 24 := by omega
  by_cases hleap : q = 1460
  · have hf : 0 ≤ f ∧ f ≤ 23 := by omega
    rw [yearOfEra_leapDay (k := k) (f := f) (by omega) hkf.1 hf] at hy
    have hstart := yearStart_of_era hkf.1 hkf.2 (j := 3) (by decide)
    have hsucc := yearStart_of_era hkf.1 (f := f + 1) (by omega) (j := 0) (by decide)
    rw [show 100 * k + 4 * (f + 1) + 0 = y + 1 by omega] at hsucc
    rw [← hy] at hstart
    omega
  · obtain ⟨j, hj⟩ : ∃ j, j = q / 365 := ⟨_, rfl⟩
    have hjj : 0 ≤ j ∧ j ≤ 3 := by omega
    rw [yearOfEra_eq (k := k) (f := f) (j := j) (r := q - 365 * j) (by omega) hkf.1 hkf.2 hjj
      (by omega)] at hy
    have hstart := yearStart_of_era hkf.1 hkf.2 hjj
    have hsucc := yearStart_succ_bounds y
    rw [← hy] at hstart
    omega

theorem month_bounds {r m : Int} (hr : 0 ≤ r ∧ r ≤ 365) (hm : m = (5 * r + 2) / 153) :
    0 ≤ m ∧ m ≤ 11 ∧ (153 * m + 2) / 5 ≤ r ∧ (m < 11 → r < (153 * (m + 1) + 2) / 5) := by
  omega

theorem yearStart_add_era (y era : Int) :
    yearStart (y + era * 400) = yearStart y + era * 146097 := by
  have hfours : (y + era * 400) / 4 = y / 4 + era * 100 := by omega
  have hcenturies : (y + era * 400) / 100 = y / 100 + era * 4 := by omega
  have heras : (y + era * 400) / 400 = y / 400 + era := by omega
  simp only [yearStart, hfours, hcenturies, heras]
  omega

theorem ofDayNumber_spec (n : Int) : (1 ≤ (ofDayNumber n).month ∧ (ofDayNumber n).month ≤ 12) ∧
    monthStart (ofDayNumber n).months ≤ n + 305 ∧
    n + 305 < monthStart ((ofDayNumber n).months + 1) ∧
    ((ofDayNumber n).day : Int) = n + 306 - monthStart (ofDayNumber n).months := by
  simp only [ofDayNumber]
  generalize hera : (n + 305) / 146097 = era
  generalize he : n + 305 - era * 146097 = e
  generalize hy : (e - e / 1460 + e / 36524 - e / 146096) / 365 = y
  generalize hr : e - (365 * y + y / 4 - y / 100) = r
  generalize hm : (5 * r + 2) / 153 = m
  obtain ⟨hylow, hyhigh, hstart, hsucc⟩ := yearOfEra_bounds (by omega) (by omega) hy.symm
  have hbegin : yearStart y = e - r := by
    unfold yearStart
    omega
  have hrange : 0 ≤ r ∧ r ≤ 365 := by
    have hnext := yearStart_succ_bounds y
    omega
  obtain ⟨hmlow, hmhigh, hfirst, hlast⟩ := month_bounds hrange hm.symm
  have hmonth : months ⟨if (if m < 10 then m + 3 else m - 9) ≤ 2 then y + era * 400 + 1
      else y + era * 400, (if m < 10 then m + 3 else m - 9).toNat,
      (r - (153 * m + 2) / 5 + 1).toNat⟩ = 12 * (y + era * 400) + m := by
    simp only [months]
    split <;> split <;> omega
  have hthis : monthStart (12 * (y + era * 400) + m) =
      yearStart y + era * 146097 + (153 * m + 2) / 5 := by
    rw [monthStart_of_year ⟨hmlow, hmhigh⟩, yearStart_add_era]
  have hthat : n + 305 < monthStart (12 * (y + era * 400) + m + 1) := by
    by_cases hfebruary : m = 11
    · rw [show 12 * (y + era * 400) + m + 1 = 12 * (y + 1 + era * 400) + 0 by omega,
        monthStart_of_year (by decide), yearStart_add_era]
      omega
    · have hnext : 0 ≤ m + 1 ∧ m + 1 ≤ 11 := by omega
      rw [Int.add_assoc, monthStart_of_year hnext, yearStart_add_era]
      omega
  rw [hmonth, hthis]
  refine ⟨?_, by omega, hthat, by omega⟩
  split <;> omega

theorem ofDayNumber_valid (n : Int) : (ofDayNumber n).IsValid := by
  obtain ⟨hmonth, hfirst, hlast, hday⟩ := ofDayNumber_spec n
  rw [monthStart_succ hmonth] at hlast
  constructor <;> omega

theorem dayNumber_ofDayNumber (n : Int) : (ofDayNumber n).dayNumber = n := by
  obtain ⟨hmonth, -, -, hday⟩ := ofDayNumber_spec n
  rw [dayNumber_eq hmonth, hday]
  omega

theorem ofDayNumber_eq_iff (hc : c.IsValid) : ofDayNumber n = c ↔ n = c.dayNumber := by
  rw [← dayNumber_inj (ofDayNumber_valid n) hc, dayNumber_ofDayNumber]

theorem ofDayNumber_lt_iff {m : Int} : m < n ↔ (ofDayNumber m).Before (ofDayNumber n) := by
  rw [← dayNumber_lt_iff (ofDayNumber_valid m) (ofDayNumber_valid n), dayNumber_ofDayNumber,
    dayNumber_ofDayNumber]

theorem dayNumber_first (hc : 1 ≤ c.month ∧ c.month ≤ 12) (hd : 1 ≤ d.month ∧ d.month ≤ 12)
    (hmonths : d.months = c.months + 1) (hlast : c.day = daysInMonth c.year c.month)
    (hfirst : d.day = 1) : d.IsValid ∧ d.dayNumber = c.dayNumber + 1 := by
  have hlength := daysInMonth_bounds d.year hd
  refine ⟨⟨by omega, by omega⟩, ?_⟩
  rw [dayNumber_eq hc, dayNumber_eq hd, hmonths, monthStart_succ hc, hlast, hfirst]
  omega

theorem next_valid (hc : c.IsValid) : c.next.IsValid ∧ c.next.dayNumber = c.dayNumber + 1 := by
  have hmonth := hc.month
  unfold next
  split
  · rename_i hday
    have hday := inCalendar_iff.1 hday
    refine ⟨hday, ?_⟩
    rw [dayNumber_eq hday.month, dayNumber_eq hmonth]
    simp only [months]
    omega
  · rename_i hday
    rw [inCalendar_iff] at hday
    have hlast : c.day = daysInMonth c.year c.month := by
      have hlength := hc.2
      simp only [IsValid] at hday
      omega
    split
    · apply dayNumber_first hmonth _ _ hlast rfl
      · dsimp only
        omega
      · simp only [months]
        omega
    · have hjanuary : 1 ≤ 1 ∧ 1 ≤ 12 := by decide
      apply dayNumber_first hmonth hjanuary _ hlast rfl
      simp only [months]
      omega

theorem ofDayNumber_succ_iff {m : Int} : ofDayNumber m = (ofDayNumber n).next ↔ m = n + 1 := by
  obtain ⟨hvalid, hnumber⟩ := next_valid (ofDayNumber_valid n)
  rw [ofDayNumber_eq_iff hvalid, hnumber, dayNumber_ofDayNumber]

theorem dayNumber_bounds (hc : c.IsValid) (hyear : 1 ≤ c.year ∧ c.year ≤ 9999) :
    1 ≤ c.dayNumber ∧ c.dayNumber ≤ 3652059 := by
  have hmonth := hc.month
  have hday := hc.1
  have hlong : c.day ≤ 31 := hc.2.trans (daysInMonth_bounds c.year hmonth).2
  have hfirst : ¬ c.Before ⟨1, 1, 1⟩ := by
    simp only [Before]
    omega
  have hlast : ¬ Before ⟨9999, 12, 31⟩ c := by
    simp only [Before]
    omega
  rw [← dayNumber_lt_iff hc (by decide)] at hfirst
  rw [← dayNumber_lt_iff (by decide) hc] at hlast
  exact ⟨Int.not_lt.1 hfirst, Int.not_lt.1 hlast⟩

theorem year_bounds (hc : c.IsValid) (hlow : -2 ^ 31 ≤ c.dayNumber) (hhigh : c.dayNumber < 2 ^ 31) :
    -2 ^ 31 ≤ c.year ∧ c.year < 2 ^ 31 := by
  have hmonth := hc.month
  have hlong : c.day ≤ 31 := hc.2.trans (daysInMonth_bounds c.year hmonth).2
  have hyear : c.months / 12 = c.year - 1 ∨ c.months / 12 = c.year := by
    unfold months
    omega
  have hrest : 0 ≤ (153 * (c.months % 12) + 2) / 5 ∧ (153 * (c.months % 12) + 2) / 5 ≤ 337 := by
    omega
  rw [dayNumber_eq hmonth, monthStart, yearStart] at hlow hhigh
  generalize c.months / 12 = y at hyear hlow hhigh
  generalize (153 * (c.months % 12) + 2) / 5 = r at hrest hlow hhigh
  omega

end Civil

namespace Date

theorem civil_valid (d : Date) : d.civil.IsValid := Civil.ofDayNumber_valid _

theorem dayNumber_civil (d : Date) : d.civil.dayNumber = d.days.toInt :=
  Civil.dayNumber_ofDayNumber _

theorem civil_injective {d e : Date} (h : d.civil = e.civil) : d = e := by
  have hdays := congrArg Civil.dayNumber h
  rw [dayNumber_civil, dayNumber_civil, Int32.toInt_inj] at hdays
  cases d
  cases e
  exact congrArg mk hdays

theorem ofCivil_eq_ok {year : Int} {month day : Nat} {d : Date} :
    ofCivil year month day = .ok d ↔
      (1 ≤ year ∧ year ≤ 9999) ∧ d.civil = ⟨year, month, day⟩ := by
  have hnumber (valid : Civil.IsValid ⟨year, month, day⟩) (hyear : 1 ≤ year ∧ year ≤ 9999) :
      (Int32.ofInt (Civil.dayNumber ⟨year, month, day⟩)).toInt =
        Civil.dayNumber ⟨year, month, day⟩ := by
    obtain ⟨hlow, hhigh⟩ := Civil.dayNumber_bounds valid hyear
    apply Int32.toInt_ofInt_of_le <;> omega
  unfold ofCivil
  constructor
  · intro h
    split at h
    · rename_i hcivil
      obtain ⟨hlow, hhigh, valid⟩ := hcivil
      have valid : Civil.IsValid ⟨year, month, day⟩ := valid
      cases h
      refine ⟨⟨hlow, hhigh⟩, ?_⟩
      rw [civil, Civil.ofDayNumber_eq_iff valid]
      exact hnumber valid ⟨hlow, hhigh⟩
    · cases h
  · rintro ⟨hyear, hd⟩
    have valid := hd ▸ d.civil_valid
    rw [if_pos ⟨hyear.1, hyear.2, valid⟩]
    congr 1
    apply civil_injective
    rw [hd, civil, Civil.ofDayNumber_eq_iff valid]
    exact hnumber valid hyear

theorem exists_ofCivil {year : Int} {month day : Nat} :
    (∃ d, ofCivil year month day = .ok d) ↔
      (1 ≤ year ∧ year ≤ 9999) ∧ Civil.InCalendar ⟨year, month, day⟩ := by
  rw [Civil.inCalendar_iff, ofCivil]
  constructor
  · rintro ⟨d, h⟩
    split at h
    · rename_i hcivil
      exact ⟨⟨hcivil.1, hcivil.2.1⟩, hcivil.2.2⟩
    · cases h
  · rintro ⟨hyear, valid⟩
    exact ⟨_, if_pos ⟨hyear.1, hyear.2, valid⟩⟩

/-- Dates stand for the days of the calendar, one by one and in its order. A date is made of each day
of the years 1 to 9999, and of nothing else, and tells that day; and whatever number a date has, the
day that it tells is one of the calendar and has that number. -/
theorem dates_are_days :
    (∀ year month day, (∃ d, ofCivil year month day = .ok d) ↔
      (1 ≤ year ∧ year ≤ 9999) ∧ Civil.InCalendar ⟨year, month, day⟩) ∧
    (∀ year month day d, ofCivil year month day = .ok d ↔
      (1 ≤ year ∧ year ≤ 9999) ∧ d.civil = ⟨year, month, day⟩) ∧
    (∀ d : Date, d.civil.InCalendar ∧ d.civil.dayNumber = d.days.toInt ∧
      (Int32.ofInt d.civil.year).toInt = d.civil.year) ∧
    (∀ d e : Date, e.civil = d.civil.next ↔ e.days.toInt = d.days.toInt + 1) ∧
    ∀ d e : Date, d.days < e.days ↔ d.civil.Before e.civil := by
  refine ⟨fun year month day => exists_ofCivil, fun year month day d => ofCivil_eq_ok,
    fun d => ⟨Civil.inCalendar_iff.2 d.civil_valid, d.dayNumber_civil, ?_⟩,
    fun d e => Civil.ofDayNumber_succ_iff, fun d e => ?_⟩
  · have hnumber := d.dayNumber_civil
    obtain ⟨hlow, hhigh⟩ := Civil.year_bounds d.civil_valid
      (hnumber ▸ d.days.le_toInt) (hnumber ▸ d.days.toInt_lt)
    exact Int32.toInt_ofInt_of_le hlow hhigh
  · rw [Int32.lt_iff_toInt_lt]
    exact Civil.ofDayNumber_lt_iff

end Date
end Isam
