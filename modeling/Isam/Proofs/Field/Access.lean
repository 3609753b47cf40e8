import Isam.Proofs.Field.Coerce
namespace Isam

inductive Access
  | bool
  | signed
  | unsigned
  | float
  | text
  | binary
  | date
  | time
  | timestamp
  deriving DecidableEq

namespace Access

abbrev Carrier : Access → Type
  | .bool => Bool
  | .signed => Int64
  | .unsigned => UInt64
  | .float => Double
  | .text => String
  | .binary => List UInt8
  | .date => Date
  | .time => Time
  | .timestamp => Timestamp

def value : (a : Access) → a.Carrier → Value
  | .bool => .bool
  | .signed => .signed
  | .unsigned => .unsigned
  | .float => .float
  | .text => .text
  | .binary => .binary
  | .date => .date
  | .time => .time
  | .timestamp => .timestamp

def types : Access → List FieldType
  | .bool => [.bool]
  | .signed => [.tinyInt, .smallInt, .integer, .bigInt, .number, .money, .currency]
  | .unsigned => [.uTinyInt, .uSmallInt, .uInteger]
  | .float => [.float, .double, .eFloat]
  | .text => [.chars, .fpString, .f2String, .f4String, .pString, .varChar, .lvb, .date]
  | .binary => [.binary, .varBinary, .lvb]
  | .date => [.date]
  | .time => [.time]
  | .timestamp => [.timestamp]

def reading (format : DateFormat) :
    (a : Access) → Field → Except Error Value → Except Error (Option a.Carrier)
  | .bool => Field.asBool
  | .signed => Field.asSigned
  | .unsigned => Field.asUnsigned
  | .float => Field.asFloat
  | .text => fun f => f.asText format
  | .binary => Field.asBinary
  | .date => Field.asDate
  | .time => Field.asTime
  | .timestamp => Field.asTimestamp

def shown (format : DateFormat) : (a : Access) → Value → Option a.Carrier
  | .bool, .bool b => some b
  | .signed, .signed n => some n
  | .unsigned, .unsigned n => some n
  | .float, .float x => some x
  | .text, .text s => some s
  | .text, .date d => some (d.format format)
  | .text, .binary bs => Text.ofUtf8? bs
  | .binary, .binary bs => some bs
  | .binary, .text s => some (Text.utf8 s)
  | .date, .date d => some d
  | .time, .time t => some t
  | .timestamp, .timestamp t => some t
  | _, _ => none

def shows (format : DateFormat) (a : Access) (v : Value) : Option (Option a.Carrier) :=
  if v.isNull then some none else (a.shown format v).map some

def Garbled (a : Access) (f : Field) (v : Value) : Prop :=
  a = .text ∧ f.type = .lvb ∧ ∃ bs, v = .binary bs ∧ Text.ofUtf8? bs = none

variable {a : Access} {f : Field} {u v : Value} {type : FieldType} {format : DateFormat}

theorem mem_signed_types : type ∈ signed.types ↔ type.isSigned = true := by
  cases type <;> simp [types, FieldType.isSigned]

theorem mem_unsigned_types : type ∈ unsigned.types ↔ type.isUnsigned = true := by
  cases type <;> simp [types, FieldType.isUnsigned]

theorem mem_float_types : type ∈ float.types ↔ type.isFloat = true := by
  cases type <;> simp [types, FieldType.isFloat]

theorem mem_text_types : type ∈ text.types ↔ (type.isString || type.isDate) = true := by
  cases type <;> simp [types, FieldType.isString, FieldType.isDate]

theorem mem_binary_types : type ∈ binary.types ↔ (type.isBinary || type = .lvb) = true := by
  cases type <;> simp [types, FieldType.isBinary]

theorem mem_types_of_kind {x : a.Carrier} (h : (a.value x).kind ∈ type.kinds) : type ∈ a.types := by
  cases a <;> cases type <;> simp_all [value, Value.kind, FieldType.kinds, types]

theorem shown_value (x : a.Carrier) : a.shown format (a.value x) = some x := by
  cases a <;> rfl

theorem isNull_value (x : a.Carrier) : (a.value x).isNull = false := by
  cases a <;> rfl

theorem shows_value (x : a.Carrier) : a.shows format (a.value x) = some (some x) := by
  rw [shows, isNull_value, shown_value]
  rfl

theorem ok_iff {α : Type} {x y : α} : (Except.ok x : Except Error α) = .ok y ↔ some x = some y := by
  rw [Except.ok.injEq, Option.some.injEq]

theorem error_iff {α : Type} {e : Error} {y : α} : .error e = Except.ok y ↔ none = some y :=
  iff_of_false nofun nofun

theorem reading_of_mem (h : f.type ∈ a.types) {x : Option a.Carrier} :
    a.reading format f (.ok v) = .ok x ↔ a.shows format v = some x := by
  cases a with
  | bool | date | time | timestamp =>
    have htype := List.mem_singleton.1 h
    cases v with
    | null =>
      simp only [reading, Field.asBool, Field.asDate, Field.asTime, Field.asTimestamp, htype, if_true]
      exact ok_iff
    | _ => first | exact ok_iff | exact error_iff
  | signed =>
    have gated : f.asSigned (.ok v) = _ := if_pos (mem_signed_types.1 h)
    show f.asSigned (.ok v) = .ok x ↔ _
    rw [gated]
    cases v <;> first | exact ok_iff | exact error_iff
  | unsigned =>
    have gated : f.asUnsigned (.ok v) = _ := if_pos (mem_unsigned_types.1 h)
    show f.asUnsigned (.ok v) = .ok x ↔ _
    rw [gated]
    cases v <;> first | exact ok_iff | exact error_iff
  | float =>
    have gated : f.asFloat (.ok v) = _ := if_pos (mem_float_types.1 h)
    show f.asFloat (.ok v) = .ok x ↔ _
    rw [gated]
    cases v <;> first | exact ok_iff | exact error_iff
  | text =>
    have gated : f.asText format (.ok v) = _ := if_pos (mem_text_types.1 h)
    show f.asText format (.ok v) = .ok x ↔ _
    rw [gated]
    cases v with
    | binary bs =>
      have shown : text.shows format (.binary bs) = (Text.ofUtf8? bs).map some := rfl
      rw [shown]
      simp only [bind, Except.bind]
      cases Text.ofUtf8? bs with
      | none => exact error_iff
      | some text => exact ok_iff
    | _ => first | exact ok_iff | exact error_iff
  | binary =>
    have gated : f.asBinary (.ok v) = _ := if_pos (mem_binary_types.1 h)
    show f.asBinary (.ok v) = .ok x ↔ _
    rw [gated]
    cases v <;> first | exact ok_iff | exact error_iff

theorem gate_of_ok {α : Type} {P : Prop} [Decidable P] {answer : Except Error α} {e : Error} {x : α}
    (h : (if P then answer else .error e) = .ok x) : P := by
  by_contra hP
  rw [if_neg hP] at h
  cases h

theorem mem_of_reading (stores : f.Stores v) {x : Option a.Carrier}
    (read : a.reading format f (.ok v) = .ok x) : f.type ∈ a.types := by
  have allows := FieldType.allows_of_checkValue stores
  cases a with
  | signed => exact mem_signed_types.2 (gate_of_ok read)
  | unsigned => exact mem_unsigned_types.2 (gate_of_ok read)
  | float => exact mem_float_types.2 (gate_of_ok read)
  | text => exact mem_text_types.2 (gate_of_ok read)
  | binary => exact mem_binary_types.2 (gate_of_ok read)
  | bool =>
    cases v with
    | null => exact List.mem_singleton.2 (gate_of_ok read)
    | bool b => exact mem_types_of_kind (a := .bool) (x := b) (allows.resolve_left nofun)
    | _ => cases read
  | date =>
    cases v with
    | null => exact List.mem_singleton.2 (gate_of_ok read)
    | date d => exact mem_types_of_kind (a := .date) (x := d) (allows.resolve_left nofun)
    | _ => cases read
  | time =>
    cases v with
    | null => exact List.mem_singleton.2 (gate_of_ok read)
    | time t => exact mem_types_of_kind (a := .time) (x := t) (allows.resolve_left nofun)
    | _ => cases read
  | timestamp =>
    cases v with
    | null => exact List.mem_singleton.2 (gate_of_ok read)
    | timestamp t => exact mem_types_of_kind (a := .timestamp) (x := t) (allows.resolve_left nofun)
    | _ => cases read

theorem reading_eq_ok (stores : f.Stores v) {x : Option a.Carrier} :
    a.reading format f (.ok v) = .ok x ↔ f.type ∈ a.types ∧ a.shows format v = some x := by
  constructor
  · intro read
    have h := mem_of_reading stores read
    exact ⟨h, (reading_of_mem h).1 read⟩
  · rintro ⟨h, shows⟩
    exact (reading_of_mem h).2 shows

theorem shows_eq_none_iff : a.shows format v = some none ↔ v = .null := by
  unfold shows
  cases v <;> simp [Value.isNull]

def kinds : Access → List ValueKind
  | .bool => [.bool]
  | .signed => [.signed]
  | .unsigned => [.unsigned]
  | .float => [.float]
  | .text => [.text, .date, .binary]
  | .binary => [.binary, .text]
  | .date => [.date]
  | .time => [.time]
  | .timestamp => [.timestamp]

theorem kinds_of_types : ∀ a : Access, ∀ type ∈ a.types, ∀ k ∈ type.kinds,
    k ∈ a.kinds ∧ (a = .text → k = .binary → type = .lvb) := by
  intro a
  cases a <;> decide

theorem exists_shown (h : v.kind ∈ a.kinds) :
    (∃ c, a.shown format v = some c) ∨
      (a = .text ∧ ∃ bs, v = .binary bs ∧ Text.ofUtf8? bs = none) := by
  cases a with
  | text =>
    cases v with
    | binary bs =>
      cases hbs : Text.ofUtf8? bs with
      | none => exact .inr ⟨rfl, bs, rfl, hbs⟩
      | some text => exact .inl ⟨text, hbs⟩
    | _ => simp_all [kinds, Value.kind, shown]
  | _ => cases v <;> simp_all [kinds, Value.kind, shown]

theorem exists_shows_iff (stores : f.Stores v) (h : f.type ∈ a.types) :
    (∃ x, a.shows format v = some x) ↔ ¬ a.Garbled f v := by
  constructor
  · rintro ⟨x, shows⟩ ⟨rfl, -, bs, rfl, hbs⟩
    simp [Access.shows, Value.isNull, shown, hbs] at shows
  · intro clear
    unfold Access.shows
    split
    · exact ⟨none, rfl⟩
    · rename_i hnull
      have hkind : v.kind ∈ f.type.kinds := by
        refine (FieldType.allows_of_checkValue stores).resolve_left fun hk => hnull ?_
        cases v with
        | null => rfl
        | _ => cases hk
      obtain ⟨hkinds, hlvb⟩ := kinds_of_types a f.type h v.kind hkind
      have shown : (∃ c, a.shown format v = some c) ∨ _ := exists_shown hkinds
      rcases shown with ⟨c, hc⟩ | ⟨rfl, bs, rfl, hbs⟩
      · exact ⟨some c, by rw [hc]; rfl⟩
      · exact absurd ⟨rfl, hlvb rfl rfl, bs, rfl, hbs⟩ clear

/-! What is set, and read again. -/

theorem coerce_value {x : a.Carrier} (h : (a.value x).integer? = none) :
    type.coerce (a.value x) = a.value x := by
  cases a <;> first
    | rfl
    | cases h

theorem coerce_value_of_mem {x : a.Carrier} (h : type ∈ a.types) :
    type.coerce (a.value x) = a.value x := by
  cases a with
  | signed =>
    have hs := mem_signed_types.1 h
    exact FieldType.coerce_signed x (FieldType.not_signed_and_unsigned hs)
  | unsigned =>
    have hu := mem_unsigned_types.1 h
    exact FieldType.coerce_unsigned x (FieldType.not_unsigned_and_signed hu)
  | _ => rfl

theorem integer_cases {m : Int} (stores : f.Stores v) (h : v.integer? = some m) :
    (f.type ∈ signed.types ∧ ∃ k : Int64, v = .signed k ∧ k.toInt = m) ∨
      f.type ∈ unsigned.types ∧ ∃ k : UInt64, v = .unsigned k ∧ k.toNat = m := by
  have allows := FieldType.allows_of_checkValue stores
  cases v with
  | signed n =>
    refine .inl ⟨mem_types_of_kind (a := .signed) (x := n) (allows.resolve_left nofun), n, rfl, ?_⟩
    exact Option.some.inj h
  | unsigned n =>
    refine .inr ⟨mem_types_of_kind (a := .unsigned) (x := n) (allows.resolve_left nofun), n, rfl, ?_⟩
    exact Option.some.inj h
  | _ => cases h

theorem types_of_stores {x : a.Carrier} (stores : f.Stores (f.type.coerce (a.value x))) :
    f.type ∈ a.types ∨ a = .signed ∧ f.type ∈ unsigned.types ∨
      a = .unsigned ∧ f.type ∈ signed.types := by
  cases hm : (a.value x).integer? with
  | none =>
    rw [coerce_value hm] at stores
    have allows := FieldType.allows_of_checkValue stores
    have hkind : (a.value x).kind ≠ .null := by
      cases a <;> exact ValueKind.noConfusion
    exact .inl (mem_types_of_kind (allows.resolve_left hkind))
  | some m =>
    have cases := integer_cases stores (FieldType.integer?_coerce hm)
    cases a with
    | signed => exact cases.imp (·.1) fun other => .inl ⟨rfl, other.1⟩
    | unsigned => exact cases.symm.imp (·.1) fun other => .inr ⟨rfl, other.1⟩
    | _ => cases hm

end Access
end Isam
