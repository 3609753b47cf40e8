import Isam.Proofs.Field.Check
import Isam.Field.Value
import Mathlib.Order.Lattice
namespace Isam

namespace FieldType

variable {t : FieldType} {length : UInt32} {u v : Value} {m least most : Int}

def InRange (t : FieldType) (m : Int) : Prop :=
  (∃ least most, t.signedRange? = some (least, most) ∧ least ≤ m ∧ m ≤ most) ∨
    ∃ most : Nat, t.unsignedMax? = some most ∧ 0 ≤ m ∧ m ≤ most

theorem not_signed_and_unsigned (hs : t.isSigned = true) : t.isUnsigned = false := by
  cases t <;> first
    | rfl
    | cases hs

theorem signedRange?_le (h : t.signedRange? = some (least, most)) :
    Int64.minValue.toInt ≤ least ∧ most ≤ Int64.maxValue.toInt := by
  cases t <;> cases h <;> decide

theorem not_unsigned_and_signed (hu : t.isUnsigned = true) : t.isSigned = false := by
  cases hs : t.isSigned with
  | false => rfl
  | true =>
    rw [not_signed_and_unsigned hs] at hu
    cases hu

theorem coerce_signed (n : Int64) (h : t.isUnsigned = false) :
    t.coerce (.signed n) = .signed n := by
  simp [coerce, h]

theorem coerce_unsigned (n : UInt64) (h : t.isSigned = false) :
    t.coerce (.unsigned n) = .unsigned n := by
  simp [coerce, h]

theorem coerce_signed_cases (t : FieldType) (n : Int64) :
    (t.coerce (.signed n) = .signed n ∧ (t.isUnsigned = true → n.toInt < 0)) ∨
    (t.isUnsigned = true ∧ ∃ k, t.coerce (.signed n) = .unsigned k ∧ (k.toNat : Int) = n.toInt) := by
  unfold coerce
  dsimp only
  split
  · rename_i h
    rw [Bool.and_eq_true, decide_eq_true_eq] at h
    refine .inr ⟨h.1, _, rfl, ?_⟩
    have hlt := n.toInt_lt
    rw [UInt64.toNat_ofNat_of_lt' (by simp only [UInt64.size]; omega)]
    exact Int.toNat_of_nonneg h.2
  · rename_i h
    refine .inl ⟨rfl, fun hu => ?_⟩
    rw [hu, Bool.true_and, decide_eq_true_eq] at h
    omega

theorem coerce_unsigned_cases (t : FieldType) (n : UInt64) :
    (t.coerce (.unsigned n) = .unsigned n ∧
      (t.isSigned = true → Int64.maxValue.toInt < n.toNat)) ∨
    (t.isSigned = true ∧ ∃ k, t.coerce (.unsigned n) = .signed k ∧ k.toInt = n.toNat) := by
  unfold coerce
  dsimp only
  split
  · rename_i h
    rw [Bool.and_eq_true, decide_eq_true_eq] at h
    have hmax : Int64.maxValue.toInt = 2 ^ 63 - 1 := by decide
    exact .inr ⟨h.1, _, rfl, Int64.toInt_ofNat_of_lt (by omega)⟩
  · rename_i h
    refine .inl ⟨rfl, fun hs => ?_⟩
    rw [hs, Bool.true_and, decide_eq_true_eq] at h
    omega

theorem integer?_coerce (h : u.integer? = some m) : (t.coerce u).integer? = some m := by
  cases u with
  | signed n =>
    cases h
    rcases t.coerce_signed_cases n with ⟨heq, -⟩ | ⟨-, k, heq, hk⟩
    · rw [heq]
      rfl
    · rw [heq]
      exact congrArg some hk
  | unsigned n =>
    cases h
    rcases t.coerce_unsigned_cases n with ⟨heq, -⟩ | ⟨-, k, heq, hk⟩
    · rw [heq]
      rfl
    · rw [heq]
      exact congrArg some hk
  | null | bool | float | date | time | timestamp | text | binary => cases h

theorem coerce_coerce (t : FieldType) (u : Value) : t.coerce (t.coerce u) = t.coerce u := by
  cases u with
  | signed n =>
    rcases t.coerce_signed_cases n with ⟨heq, -⟩ | ⟨hu, k, heq, -⟩
    · rw [heq, heq]
    · rw [heq, coerce_unsigned k (not_unsigned_and_signed hu)]
  | unsigned n =>
    rcases t.coerce_unsigned_cases n with ⟨heq, -⟩ | ⟨hs, k, heq, -⟩
    · rw [heq, heq]
    · rw [heq, coerce_signed k (not_signed_and_unsigned hs)]
  | null | bool | float | date | time | timestamp | text | binary => rfl

theorem coerce_of_checkValue (h : t.checkValue length v = .ok ()) : t.coerce v = v := by
  have allows := allows_of_checkValue h
  cases v with
  | signed n =>
    have hs := signed_mem_kinds.1 (allows.resolve_left nofun)
    exact coerce_signed n (not_signed_and_unsigned hs)
  | unsigned n =>
    have hu := unsigned_mem_kinds.1 (allows.resolve_left nofun)
    exact coerce_unsigned n (not_unsigned_and_signed hu)
  | null | bool | float | date | time | timestamp | text | binary => rfl

theorem checkValue_signed {n : Int64} :
    t.checkValue length (.signed n) = .ok () ↔
      ∃ least most, t.signedRange? = some (least, most) ∧ least ≤ n.toInt ∧ n.toInt ≤ most := by
  unfold checkValue
  cases hrange : t.signedRange? with
  | none => simp
  | some range =>
    obtain ⟨least, most⟩ := range
    dsimp only
    split
    · rename_i h
      exact ⟨fun _ => ⟨least, most, rfl, h⟩, fun _ => rfl⟩
    · rename_i h
      refine ⟨nofun, ?_⟩
      rintro ⟨_, _, ⟨⟩, hn⟩
      exact absurd hn h

theorem checkValue_unsigned {n : UInt64} :
    t.checkValue length (.unsigned n) = .ok () ↔
      ∃ most, t.unsignedMax? = some most ∧ n.toNat ≤ most := by
  unfold checkValue
  cases hmax : t.unsignedMax? with
  | none => simp
  | some most =>
    dsimp only
    split
    · rename_i h
      exact ⟨fun _ => ⟨most, rfl, h⟩, fun _ => rfl⟩
    · rename_i h
      refine ⟨nofun, ?_⟩
      rintro ⟨_, ⟨⟩, hn⟩
      exact absurd hn h

theorem inRange_of_checkValue (h : v.integer? = some m) (checked : t.checkValue length v = .ok ()) :
    t.InRange m := by
  cases v with
  | signed n =>
    cases h
    exact .inl (checkValue_signed.1 checked)
  | unsigned n =>
    cases h
    obtain ⟨most, hmax, hn⟩ := checkValue_unsigned.1 checked
    exact .inr ⟨most, hmax, Int.natCast_nonneg _, Int.ofNat_le.2 hn⟩
  | null | bool | float | date | time | timestamp | text | binary => cases h

theorem isSigned_of_range (h : t.signedRange? = some (least, most)) : t.isSigned = true := by
  rw [← signedRange?_isSome, h]
  rfl

theorem isUnsigned_of_max {most : Nat} (h : t.unsignedMax? = some most) : t.isUnsigned = true := by
  rw [← unsignedMax?_isSome, h]
  rfl

theorem checkValue_coerce_iff (h : u.integer? = some m) :
    t.checkValue length (t.coerce u) = .ok () ↔ t.InRange m := by
  refine ⟨inRange_of_checkValue (integer?_coerce h), ?_⟩
  rintro (⟨least, most, hrange, hleast, hmost⟩ | ⟨most, hmax, hzero, hmost⟩)
  · have hs := isSigned_of_range hrange
    cases u with
    | signed n =>
      cases h
      rw [coerce_signed n (not_signed_and_unsigned hs)]
      exact checkValue_signed.2 ⟨least, most, hrange, hleast, hmost⟩
    | unsigned n =>
      cases h
      rcases t.coerce_unsigned_cases n with ⟨-, large⟩ | ⟨-, k, heq, hk⟩
      · have hbound := (signedRange?_le hrange).2
        have hlarge := large hs
        omega
      · rw [heq]
        exact checkValue_signed.2 ⟨least, most, hrange, hk ▸ hleast, hk ▸ hmost⟩
    | null | bool | float | date | time | timestamp | text | binary => cases h
  · have hu := isUnsigned_of_max hmax
    cases u with
    | signed n =>
      cases h
      rcases t.coerce_signed_cases n with ⟨-, negative⟩ | ⟨-, k, heq, hk⟩
      · have hnegative := negative hu
        omega
      · rw [heq]
        exact checkValue_unsigned.2 ⟨most, hmax, by omega⟩
    | unsigned n =>
      cases h
      rw [coerce_unsigned n (not_unsigned_and_signed hu)]
      exact checkValue_unsigned.2 ⟨most, hmax, Int.ofNat_le.1 hmost⟩
    | null | bool | float | date | time | timestamp | text | binary => cases h

theorem checkValue_of_isNull (h : v.isNull = true) : t.checkValue length v = .ok () := by
  cases v with
  | null => rfl
  | bool | signed | unsigned | float | date | time | timestamp | text | binary => cases h

end FieldType

namespace Field

variable {f : Field} {u v : Value}

def Takes (f : Field) (v : Value) : Prop :=
  (v.isNull = true ∧ f.allowsNull = true) ∨ (v.isNull = false ∧ f.Stores v)

theorem accepted_eq_ok :
    f.accepted u = .ok v ↔ v = f.type.coerce u ∧ f.Takes (f.type.coerce u) := by
  unfold accepted
  dsimp only
  split
  · rename_i h
    rw [Bool.and_eq_true, Bool.not_eq_true'] at h
    simp [Takes, h]
  · rename_i h
    rw [Bool.and_eq_true, Bool.not_eq_true', not_and, Bool.not_eq_false] at h
    constructor
    · intro heq
      obtain ⟨⟨⟩, stores, ⟨⟩⟩ := bind_eq_ok.1 heq
      cases hnull : (f.type.coerce u).isNull with
      | true => exact ⟨rfl, .inl ⟨hnull, h hnull⟩⟩
      | false => exact ⟨rfl, .inr ⟨hnull, stores⟩⟩
    · rintro ⟨rfl, ⟨hnull, -⟩ | ⟨-, stores⟩⟩
      · exact bind_eq_ok.2 ⟨(), FieldType.checkValue_of_isNull hnull, rfl⟩
      · exact bind_eq_ok.2 ⟨(), stores, rfl⟩

theorem check_eq_ok : f.toDecl.check v = .ok () ↔ f.Takes v := by
  unfold FieldDecl.check
  split
  · rename_i h
    rw [Bool.and_eq_true, Bool.not_eq_true'] at h
    have hallows : f.allowsNull = false := h.2
    simp [Takes, h.1, hallows]
  · rename_i h
    rw [Bool.and_eq_true, Bool.not_eq_true', not_and, Bool.not_eq_false] at h
    cases hnull : v.isNull with
    | true =>
      have hallows : f.allowsNull = true := h hnull
      have hcheck : f.type.checkValue f.length v = .ok () := FieldType.checkValue_of_isNull hnull
      exact ⟨fun _ => .inl ⟨hnull, hallows⟩, fun _ => hcheck⟩
    | false =>
      constructor
      · exact fun stores => .inr ⟨hnull, stores⟩
      · rintro (⟨htrue, -⟩ | ⟨-, stores⟩)
        · rw [hnull] at htrue
          cases htrue
        · exact stores

theorem Takes.coerce (takes : f.Takes v) : f.type.coerce v = v := by
  rcases takes with ⟨hnull, -⟩ | ⟨-, stores⟩
  · have stores : f.Stores v := FieldType.checkValue_of_isNull hnull
    exact FieldType.coerce_of_checkValue stores
  · exact FieldType.coerce_of_checkValue stores

theorem accepted_self_iff : f.accepted v = .ok v ↔ f.toDecl.check v = .ok () := by
  rw [accepted_eq_ok, check_eq_ok]
  constructor
  · rintro ⟨heq, takes⟩
    rwa [← heq] at takes
  · intro takes
    rw [takes.coerce]
    exact ⟨rfl, takes⟩

theorem takes_integer {m : Int} (h : u.integer? = some m) :
    f.Takes (f.type.coerce u) ↔ f.type.InRange m := by
  have hstores : f.Stores (f.type.coerce u) ↔ f.type.InRange m :=
    FieldType.checkValue_coerce_iff h
  rw [← hstores]
  have hnull : (f.type.coerce u).isNull = false := by
    have hinteger := FieldType.integer?_coerce (t := f.type) h
    cases hv : f.type.coerce u with
    | null =>
      rw [hv] at hinteger
      cases hinteger
    | bool | signed | unsigned | float | date | time | timestamp | text | binary => rfl
  constructor
  · rintro (⟨htrue, -⟩ | ⟨-, stores⟩)
    · rw [hnull] at htrue
      cases htrue
    · exact stores
  · exact fun stores => .inr ⟨hnull, stores⟩

end Field
end Isam
