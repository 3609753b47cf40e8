import Isam.Client.Access
import Isam.Error
namespace Isam

namespace FieldType

def kinds : FieldType → List ValueKind
  | .bool => [.bool]
  | .tinyInt | .smallInt | .integer | .bigInt | .number | .money | .currency => [.signed]
  | .uTinyInt | .uSmallInt | .uInteger => [.unsigned]
  | .float | .double | .eFloat => [.float]
  | .date => [.date]
  | .time => [.time]
  | .timestamp => [.timestamp]
  | .chars | .fpString | .f2String | .f4String | .pString | .varChar => [.text]
  | .lvb => [.text, .binary]
  | .binary | .varBinary => [.binary]
  | .unknown _ => []

def Allows (t : FieldType) (k : ValueKind) : Prop := k = .null ∨ k ∈ t.kinds

variable {t : FieldType} {length : UInt32} {v : Value}

theorem signed_mem_kinds : ValueKind.signed ∈ t.kinds ↔ t.isSigned = true := by
  cases t <;> simp [kinds, isSigned]

theorem unsigned_mem_kinds : ValueKind.unsigned ∈ t.kinds ↔ t.isUnsigned = true := by
  cases t <;> simp [kinds, isUnsigned]

theorem float_mem_kinds : ValueKind.float ∈ t.kinds ↔ t.isFloat = true := by
  cases t <;> simp [kinds, isFloat]

theorem text_mem_kinds : ValueKind.text ∈ t.kinds ↔ t.isString = true := by
  cases t <;> simp [kinds, isString]

theorem binary_mem_kinds : ValueKind.binary ∈ t.kinds ↔ (t.isBinary || t = .lvb) = true := by
  cases t <;> simp [kinds, isBinary]

theorem allows_of_checkValue (h : t.checkValue length v = .ok ()) : t.Allows v.kind := by
  unfold checkValue at h
  cases v with
  | null => exact .inl rfl
  | signed n =>
    refine .inr (signed_mem_kinds.2 ?_)
    rw [← signedRange?_isSome]
    cases hrange : t.signedRange? with
    | none => simp [hrange] at h
    | some range => rfl
  | unsigned n =>
    refine .inr (unsigned_mem_kinds.2 ?_)
    rw [← unsignedMax?_isSome]
    cases hmax : t.unsignedMax? with
    | none => simp [hmax] at h
    | some most => rfl
  | float x =>
    dsimp only at h
    split at h
    · rename_i hfloat
      exact .inr (float_mem_kinds.2 hfloat)
    · cases h
  | text s =>
    dsimp only at h
    split at h
    · rename_i hstring
      exact .inr (text_mem_kinds.2 hstring)
    · cases h
  | binary bs =>
    dsimp only at h
    split at h
    · rename_i hbinary
      exact .inr (binary_mem_kinds.2 hbinary)
    · cases h
  | bool | date | time | timestamp =>
    dsimp only at h
    split at h
    · rename_i ht
      rw [ht]
      exact .inr (List.mem_singleton_self _)
    · cases h

theorem checkValue_blank (t : FieldType) (length : UInt32) :
    t.checkValue length t.blank = .ok () := by
  cases t <;> rfl

end FieldType

def Field.Stores (f : Field) (v : Value) : Prop := f.type.checkValue f.length v = .ok ()

def FieldDecl.DefaultStored (d : FieldDecl) : Prop :=
  ∀ v, d.properties.default? = some v → d.type.checkValue d.length v = .ok ()

namespace Field

variable {f : Field} {u v : Value}

theorem initialValue_cases (f : Field) :
    f.Stores f.initialValue ∨ f.properties.default? = some f.initialValue := by
  unfold initialValue
  split
  · rename_i hdefault
    exact .inr hdefault
  · split
    · exact .inl rfl
    · exact .inl (f.type.checkValue_blank f.length)

theorem stores_of_accepted (h : f.accepted u = .ok v) : f.Stores v := by
  unfold accepted at h
  dsimp only at h
  split at h
  · cases h
  · obtain ⟨⟨⟩, hcheck, ⟨⟩⟩ := bind_eq_ok.1 h
    exact hcheck

end Field
end Isam
