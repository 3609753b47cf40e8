import Isam.Calendar.Written
import Isam.Proofs.Calendar.Days
import Isam.Proofs.Text.Numerals
namespace Isam

open Text (Numeral numeral_iff)

variable {c d e : Civil} {p q : DatePart} {ps : List DatePart} {cs : List Char} {f : DateFormat}

namespace DatePart

/-- How a part of a date is written. A year of two digits is one from 1950 to 2049. -/
def Spells (c : Civil) (cs : List Char) : DatePart → Prop
  | .month => cs.length = 2 ∧ Numeral c.month cs
  | .day => cs.length = 2 ∧ Numeral c.day cs
  | .fullYear => ∃ n : Nat, (cs.length = 4 ∧ Numeral n cs) ∧ c.year = n
  | .shortYear => ∃ n : Nat, (cs.length = 2 ∧ Numeral n cs) ∧
      c.year = if n < 50 then 2000 + (n : Int) else 1900 + n
  | .slash => cs = ['/']

def Fits (c : Civil) : DatePart → Prop
  | .month => c.month < 100
  | .day => c.day < 100
  | .fullYear => 0 ≤ c.year ∧ c.year ≤ 9999
  | .shortYear => 1950 ≤ c.year ∧ c.year ≤ 2049
  | .slash => True

theorem spells_iff : p.Spells c cs ↔ p.Fits c ∧ p.write c = cs := by
  cases p with
  | month => exact numeral_iff
  | day => exact numeral_iff
  | slash =>
    refine ⟨fun h => ⟨trivial, h.symm⟩, fun h => h.2.symm⟩
  | fullYear =>
    constructor
    · rintro ⟨n, hnumeral, hyear⟩
      obtain ⟨hlt, hcs⟩ := numeral_iff.1 hnumeral
      have hlt : n < 10000 := hlt
      refine ⟨?_, ?_⟩
      · simp only [Fits]
        omega
      · rw [write, hyear, ← hcs]
        rfl
    · rintro ⟨⟨hlow, hhigh⟩, hcs⟩
      obtain ⟨n, hn⟩ := Int.eq_ofNat_of_zero_le hlow
      rw [write, hn] at hcs
      refine ⟨n, numeral_iff.2 ⟨?_, hcs⟩, hn⟩
      change n < 10000
      omega
  | shortYear =>
    constructor
    · rintro ⟨n, hnumeral, hyear⟩
      obtain ⟨hlt, hcs⟩ := numeral_iff.1 hnumeral
      have hlt : n < 100 := hlt
      have hrest : c.year % 100 = n := by
        rw [hyear]
        split <;> omega
      refine ⟨?_, ?_⟩
      · simp only [Fits, hyear]
        split <;> omega
      · rw [write, hrest, ← hcs]
        rfl
    · rintro ⟨⟨hlow, hhigh⟩, hcs⟩
      obtain ⟨n, hn⟩ := Int.eq_ofNat_of_zero_le (show 0 ≤ c.year % 100 by omega)
      rw [write, hn] at hcs
      refine ⟨n, numeral_iff.2 ⟨?_, hcs⟩, ?_⟩
      · change n < 100
        omega
      · split <;> omega

theorem Spells.length (h : p.Spells c cs) : cs.length = p.width := by
  cases p with
  | month | day => exact h.1
  | fullYear | shortYear =>
    obtain ⟨n, hnumeral, -⟩ := h
    exact hnumeral.1
  | slash => exact congrArg List.length h

def told (c : Civil) : DatePart → Int
  | .month => c.month
  | .day => c.day
  | .fullYear | .shortYear => c.year
  | .slash => 0

def isYear (p : DatePart) : Bool := p == .fullYear || p == .shortYear

def Apart (p q : DatePart) : Prop :=
  p = .slash ∨ p ≠ q ∧ (p.isYear = false ∨ q.isYear = false)

instance (p q : DatePart) : Decidable (p.Apart q) := inferInstanceAs (Decidable (_ ∨ _))

theorem Apart.symm : p.Apart q → q.Apart p := by
  cases p <;> cases q <;> decide

theorem told_all : (∀ p : DatePart, p.told c = p.told d) ↔ c = d := by
  constructor
  · intro h
    have hyear := h .fullYear
    have hmonth := h .month
    have hday := h .day
    cases c
    cases d
    simp only [told, Int.ofNat_inj] at hyear hmonth hday
    simp only [hyear, hmonth, hday]
  · rintro rfl p
    rfl

theorem told_of_not_apart (h : p.told c = p.told d) (hq : ¬ p.Apart q) : q.told c = q.told d := by
  cases p <;> cases q <;> first
    | exact h
    | exact absurd (by decide) hq

theorem Spells.of_told (h : p.Spells c cs) (hsame : p.told c = p.told d) : p.Spells d cs := by
  cases p <;> simp_all [Spells, told]

def put (c d : Civil) : DatePart → Civil
  | .month => { c with month := d.month }
  | .day => { c with day := d.day }
  | .fullYear | .shortYear => { c with year := d.year }
  | .slash => c

theorem told_put (p : DatePart) (c d : Civil) : p.told (p.put c d) = p.told d := by
  cases p <;> rfl

theorem told_put_of_apart (h : p.Apart q) : q.told (p.put c d) = q.told c := by
  cases p <;> cases q <;> first
    | rfl
    | exact absurd h (by decide)

theorem expandYear_natCast (n : Nat) :
    expandYear n = if n < 50 then 2000 + (n : Int) else 1900 + n := by
  unfold expandYear centuryPivot
  split <;> split <;> omega

theorem read_eq_some (hwidth : cs.length = p.width) :
    p.read c cs = some d ↔ p.Spells d cs ∧ d = p.put c d := by
  cases p with
  | slash => simp [read, Spells, put, eq_comm]
  | month | day =>
    simp only [read, Option.ite_none_right_eq_some, List.all_eq_true, Option.some.injEq, Spells,
      Numeral, put]
    constructor
    · rintro ⟨hdigits, rfl⟩
      exact ⟨⟨hwidth, hdigits, rfl⟩, rfl⟩
    · rintro ⟨⟨-, hdigits, hvalue⟩, hput⟩
      exact ⟨hdigits, by rw [hput, hvalue]⟩
  | fullYear =>
    simp only [read, Option.ite_none_right_eq_some, List.all_eq_true, Option.some.injEq, Spells,
      Numeral, put]
    constructor
    · rintro ⟨hdigits, rfl⟩
      exact ⟨⟨_, ⟨hwidth, hdigits, rfl⟩, rfl⟩, rfl⟩
    · rintro ⟨⟨n, ⟨-, hdigits, rfl⟩, hyear⟩, hput⟩
      exact ⟨hdigits, by rw [hput, hyear]⟩
  | shortYear =>
    simp only [read, Option.ite_none_right_eq_some, List.all_eq_true, Option.some.injEq, Spells,
      Numeral, put]
    constructor
    · rintro ⟨hdigits, rfl⟩
      exact ⟨⟨_, ⟨hwidth, hdigits, rfl⟩, expandYear_natCast _⟩, rfl⟩
    · rintro ⟨⟨n, ⟨-, hdigits, rfl⟩, hyear⟩, hput⟩
      exact ⟨hdigits, by rw [hput, hyear, expandYear_natCast]⟩

end DatePart

namespace DateFormat

theorem readParts_nil : readParts [] c cs = some d ↔ cs = [] ∧ c = d := by
  cases cs <;> simp [readParts]

theorem readParts_cons : readParts (p :: ps) c cs = some d ↔ ∃ piece rest, cs = piece ++ rest ∧
    piece.length = p.width ∧ ∃ e, p.read c piece = some e ∧ readParts ps e rest = some d := by
  rw [readParts]
  constructor
  · intro h
    split at h
    · cases h
    · rename_i hlong
      refine ⟨cs.take p.width, cs.drop p.width, (List.take_append_drop _ _).symm, ?_,
        Option.bind_eq_some_iff.1 h⟩
      rw [List.length_take]
      omega
  · rintro ⟨piece, rest, rfl, hwidth, h⟩
    rw [if_neg (by simp [hwidth]), List.take_left' hwidth, List.drop_left' hwidth]
    exact Option.bind_eq_some_iff.2 h

def SpellsParts (c : Civil) : List DatePart → List Char → Prop
  | [], cs => cs = []
  | p :: ps, cs => ∃ piece rest, cs = piece ++ rest ∧ p.Spells c piece ∧ SpellsParts c ps rest

/-- The text is the day, written as the format says. -/
def Spells (f : DateFormat) (c : Civil) (cs : List Char) : Prop := SpellsParts c f.layout cs

theorem readParts_eq_some (hapart : ps.Pairwise DatePart.Apart) : readParts ps c cs = some d ↔
    SpellsParts d ps cs ∧ ∀ q, (∀ p ∈ ps, p.Apart q) → q.told c = q.told d := by
  induction ps generalizing c cs with
  | nil =>
    rw [readParts_nil, SpellsParts, ← DatePart.told_all]
    simp
  | cons p ps ih =>
    obtain ⟨hfirst, hrest⟩ := List.pairwise_cons.1 hapart
    rw [readParts_cons]
    constructor
    · rintro ⟨piece, rest, rfl, hwidth, e, hread, hparts⟩
      obtain ⟨hspells, hput⟩ := (DatePart.read_eq_some hwidth).1 hread
      obtain ⟨hparts, hlater⟩ := (ih hrest).1 hparts
      have hsame : p.told e = p.told d := hlater p fun q hq => (hfirst q hq).symm
      refine ⟨⟨piece, rest, rfl, hspells.of_told hsame, hparts⟩, fun q hq => ?_⟩
      have hafter := hlater q fun r hr => hq r (List.mem_cons_of_mem _ hr)
      rw [← hafter, hput, DatePart.told_put_of_apart (hq p List.mem_cons_self)]
    · rintro ⟨⟨piece, rest, rfl, hspells, hparts⟩, hkept⟩
      refine ⟨piece, rest, rfl, hspells.length, p.put c d,
        (DatePart.read_eq_some hspells.length).2 ⟨hspells.of_told (p.told_put c d).symm, ?_⟩,
        (ih hrest).2 ⟨hparts, fun q hq => ?_⟩⟩
      · cases p <;> rfl
      · by_cases hpq : p.Apart q
        · rw [DatePart.told_put_of_apart hpq]
          exact hkept q (List.forall_mem_cons.2 ⟨hpq, hq⟩)
        · exact DatePart.told_of_not_apart (p.told_put c d) hpq

theorem layout_apart (f : DateFormat) : f.layout.Pairwise DatePart.Apart := by
  cases f <;> decide

theorem layout_full (f : DateFormat) (q : DatePart) (h : ∀ p ∈ f.layout, p.Apart q) :
    q = .slash := by
  revert h
  cases f <;> cases q <;> decide

theorem read_iff : f.read cs = some c ↔ f.Spells c cs := by
  rw [read, readParts_eq_some f.layout_apart]
  refine and_iff_left fun q hq => ?_
  rw [f.layout_full q hq]
  rfl

def Fits (f : DateFormat) (c : Civil) : Prop := ∀ p ∈ f.layout, p.Fits c

theorem spells_iff : f.Spells c cs ↔ f.Fits c ∧ f.write c = cs := by
  unfold Spells Fits write
  induction f.layout generalizing cs with
  | nil => simp [SpellsParts, eq_comm]
  | cons p ps ih =>
    simp only [SpellsParts, ih, DatePart.spells_iff, List.forall_mem_cons, List.flatMap_cons]
    constructor
    · rintro ⟨piece, rest, rfl, ⟨hfits, rfl⟩, hrest, rfl⟩
      exact ⟨⟨hfits, hrest⟩, rfl⟩
    · rintro ⟨⟨hfits, hrest⟩, rfl⟩
      exact ⟨_, _, rfl, ⟨hfits, rfl⟩, hrest, rfl⟩

theorem two_digits (hc : c.IsValid) : c.month < Text.tenTo 2 ∧ c.day < Text.tenTo 2 := by
  have hlast := hc.month.2
  have hlong := hc.2.trans (Civil.daysInMonth_bounds c.year hc.month).2
  change c.month < 100 ∧ c.day < 100
  omega

theorem fits_of_valid (hc : c.IsValid) : f.Fits c ↔
    (.fullYear ∈ f.layout → 0 ≤ c.year ∧ c.year ≤ 9999) ∧
    (.shortYear ∈ f.layout → 1950 ≤ c.year ∧ c.year ≤ 2049) := by
  obtain ⟨hmonth, hday⟩ : c.month < 100 ∧ c.day < 100 := two_digits hc
  cases f <;> simp [Fits, layout, DatePart.Fits, hmonth, hday]

theorem isBlank_of_mem_write {x : Char} (h : x ∈ f.write c) : Text.isBlank x = false := by
  obtain ⟨p, -, hp⟩ := List.mem_flatMap.1 h
  cases p with
  | slash =>
    rw [List.mem_singleton.1 hp]
    decide
  | month | day | fullYear | shortYear =>
    rw [DatePart.write] at hp
    exact Text.isBlank_of_mem_padded hp

theorem write_inj (hc : c.IsValid) (hd : d.IsValid) (hfull : .fullYear ∈ f.layout) :
    f.write c = f.write d ↔ c = d := by
  refine ⟨fun h => ?_, congrArg _⟩
  obtain ⟨hcmonth, hcday⟩ := two_digits hc
  obtain ⟨hdmonth, hdday⟩ := two_digits hd
  simp only [write, List.flatMap] at h
  obtain ⟨hyear, hmonth, hday⟩ : c.year = d.year ∧ c.month = d.month ∧ c.day = d.day := by
    cases f with
    | mdcy | dmcy =>
      simp only [layout, List.map_cons, List.map_nil, List.flatten_cons, List.flatten_nil,
        DatePart.write, List.cons_append, List.nil_append, List.append_nil,
        Text.padded_append_inj hcmonth hdmonth, Text.padded_append_inj hcday hdday,
        List.cons.injEq, Text.padded_inj, true_and] at h
      simp only [h, and_self]
    | cymd =>
      simp only [layout, List.map_cons, List.map_nil, List.flatten_cons, List.flatten_nil,
        DatePart.write, List.append_nil, ← List.append_assoc,
        Text.append_padded_inj hcmonth hdmonth, Text.append_padded_inj hcday hdday,
        Text.padded_inj] at h
      simp only [h, and_self]
    | mdy | dmy | ymd => exact absurd hfull (by decide)
  cases c
  cases d
  congr

end DateFormat

namespace Date

variable {text : String} {a b : Date}

theorem parse_eq_ok : parse text f = .ok a ↔
    (1 ≤ a.civil.year ∧ a.civil.year ≤ 9999) ∧ f.Spells a.civil (Text.trim text.toList) := by
  rw [parse, ← DateFormat.read_iff]
  cases hread : f.read (Text.trim text.toList) with
  | none => simp
  | some c =>
    rw [Option.some.injEq, eq_comm (a := c)]
    refine ofCivil_eq_ok.trans (and_congr_left fun hcivil => ?_)
    rw [hcivil]

theorem exists_parse : (∃ a, parse text f = .ok a) ↔ ∃ c : Civil,
    f.Spells c (Text.trim text.toList) ∧ (1 ≤ c.year ∧ c.year ≤ 9999) ∧ c.InCalendar := by
  constructor
  · rintro ⟨a, h⟩
    obtain ⟨hyear, hspells⟩ := parse_eq_ok.1 h
    exact ⟨a.civil, hspells, hyear, Civil.inCalendar_iff.2 a.civil_valid⟩
  · rintro ⟨c, hspells, hcalendar⟩
    obtain ⟨a, ha⟩ := exists_ofCivil.2 hcalendar
    have hcivil := (ofCivil_eq_ok.1 ha).2
    exact ⟨a, parse_eq_ok.2 ⟨hcivil ▸ hcalendar.1, hcivil ▸ hspells⟩⟩

theorem trim_format (a : Date) (f : DateFormat) :
    Text.trim (a.format f).toList = f.write a.civil := by
  rw [format, String.toList_ofList, Text.trim_eq_self fun x hx => DateFormat.isBlank_of_mem_write hx]

theorem format_of_parse (h : parse text f = .ok a) :
    (a.format f).toList = Text.trim text.toList := by
  rw [format, String.toList_ofList]
  exact (DateFormat.spells_iff.1 (parse_eq_ok.1 h).2).2

theorem parse_format : parse (a.format f) f = .ok b ↔
    (1 ≤ b.civil.year ∧ b.civil.year ≤ 9999) ∧ f.Fits b.civil ∧
      f.write b.civil = f.write a.civil := by
  rw [parse_eq_ok, trim_format, DateFormat.spells_iff]

theorem parse_format_full (hfull : .fullYear ∈ f.layout) : parse (a.format f) f = .ok b ↔
    b = a ∧ 1 ≤ a.civil.year ∧ a.civil.year ≤ 9999 := by
  rw [parse_format, DateFormat.write_inj b.civil_valid a.civil_valid hfull,
    DateFormat.fits_of_valid b.civil_valid]
  have hshort : .shortYear ∉ f.layout := by
    revert hfull
    cases f <;> decide
  constructor
  · rintro ⟨hyear, -, hcivil⟩
    cases civil_injective hcivil
    exact ⟨rfl, hyear⟩
  · rintro ⟨rfl, hlow, hhigh⟩
    exact ⟨⟨hlow, hhigh⟩, ⟨fun _ => ⟨by omega, hhigh⟩, fun h => absurd h hshort⟩, rfl⟩

theorem parse_format_short (hshort : .shortYear ∈ f.layout) : parse (a.format f) f = .ok a ↔
    1950 ≤ a.civil.year ∧ a.civil.year ≤ 2049 := by
  rw [parse_format, DateFormat.fits_of_valid a.civil_valid]
  have hfull : .fullYear ∉ f.layout := by
    revert hshort
    cases f <;> decide
  constructor
  · rintro ⟨-, ⟨-, hyear⟩, -⟩
    exact hyear hshort
  · rintro ⟨hlow, hhigh⟩
    exact ⟨⟨by omega, by omega⟩, ⟨fun h => absurd h hfull, fun _ => ⟨hlow, hhigh⟩⟩, rfl⟩

/-- A text is a date if, without the blanks around it, it spells a day of the years 1 to 9999, and
that is what the date is then written as. Written with its full year, a date is read back as itself
or not at all; with two digits of it, as itself in the hundred years that these stand for. -/
theorem text_of_dates :
    (∀ text f a, parse text f = .ok a ↔
      (1 ≤ a.civil.year ∧ a.civil.year ≤ 9999) ∧ f.Spells a.civil (Text.trim text.toList)) ∧
    (∀ text f, (∃ a, parse text f = .ok a) ↔ ∃ c : Civil,
      f.Spells c (Text.trim text.toList) ∧ (1 ≤ c.year ∧ c.year ≤ 9999) ∧ c.InCalendar) ∧
    (∀ text f a, parse text f = .ok a → (a.format f).toList = Text.trim text.toList) ∧
    (∀ f a b, .fullYear ∈ DateFormat.layout f → (parse (a.format f) f = .ok b ↔
      b = a ∧ 1 ≤ a.civil.year ∧ a.civil.year ≤ 9999)) ∧
    ∀ f a, .shortYear ∈ DateFormat.layout f → (parse (a.format f) f = .ok a ↔
      1950 ≤ a.civil.year ∧ a.civil.year ≤ 2049) :=
  ⟨fun _ _ _ => parse_eq_ok, fun _ _ => exists_parse, fun _ _ _ => format_of_parse,
    fun _ _ _ => parse_format_full, fun _ _ => parse_format_short⟩

theorem text_of_dates_december :
    parse " 12/31/1999 " .mdcy = .ok ⟨730119⟩ ∧
    (format ⟨730119⟩ .mdcy).toList = Text.trim " 12/31/1999 ".toList ∧
    parse (format ⟨730119⟩ .mdcy) .mdcy = .ok ⟨730119⟩ ∧
    parse (format ⟨730119⟩ .ymd) .ymd = .ok ⟨730119⟩ := by
  obtain ⟨hparse, -, hformat, hfull, hshort⟩ := text_of_dates
  have hread : parse " 12/31/1999 " .mdcy = .ok ⟨730119⟩ := by rfl
  exact ⟨hread, hformat _ _ _ hread, (hfull _ _ _ (by decide)).2 ⟨rfl, by decide⟩,
    (hshort _ _ (by decide)).2 (by decide)⟩

end Date
end Isam
