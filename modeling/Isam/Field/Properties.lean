import Isam.Field.Value
namespace Isam

inductive PropertyKey
  | allowNull
  | default
  | precision
  | scale
  | collation
  deriving DecidableEq, Repr

namespace PropertyKey

def all : List PropertyKey := [.allowNull, .default, .precision, .scale, .collation]

def name : PropertyKey → String
  | .allowNull => "AllowNull"
  | .default => "Default"
  | .precision => "Precision"
  | .scale => "Scale"
  | .collation => "Collation"

def ofName? (s : String) : Option PropertyKey := all.find? (·.name == s)

end PropertyKey

inductive PropertyValue
  | bool (b : Bool)
  | int (n : Int64)
  | text (s : String)
  | value (v : Value)
  deriving DecidableEq, Repr

/-- The properties of a field. Each key may hold a value of any form; one of another form than the
key's own counts as unset. -/
structure Properties where
  allowNull : Option PropertyValue := none
  default : Option PropertyValue := none
  precision : Option PropertyValue := none
  scale : Option PropertyValue := none
  collation : Option PropertyValue := none
  deriving DecidableEq, Repr

namespace Properties

def none : Properties := {}

def get? (p : Properties) : PropertyKey → Option PropertyValue
  | .allowNull => p.allowNull
  | .default => p.default
  | .precision => p.precision
  | .scale => p.scale
  | .collation => p.collation

def set (p : Properties) (k : PropertyKey) (v : PropertyValue) : Properties :=
  match k with
  | .allowNull => { p with allowNull := some v }
  | .default => { p with default := some v }
  | .precision => { p with precision := some v }
  | .scale => { p with scale := some v }
  | .collation => { p with collation := some v }

def entries (p : Properties) : List (PropertyKey × PropertyValue) :=
  PropertyKey.all.filterMap fun k => (p.get? k).map (k, ·)

def ofEntries (es : List (PropertyKey × PropertyValue)) : Properties :=
  es.foldl (fun p e => p.set e.1 e.2) none

theorem ofEntries_entries (p : Properties) : ofEntries p.entries = p := by
  obtain ⟨a, b, c, d, e⟩ := p
  cases a <;> cases b <;> cases c <;> cases d <;> cases e <;> rfl

def size (p : Properties) : Nat := p.entries.length

def allowsNull (p : Properties) : Bool :=
  match p.allowNull with
  | some (.bool b) => b
  | _ => true

def default? (p : Properties) : Option Value :=
  match p.default with
  | some (.value v) => some v
  | _ => .none

def precision? (p : Properties) : Option Int64 :=
  match p.precision with
  | some (.int n) => some n
  | _ => .none

def scale? (p : Properties) : Option Int64 :=
  match p.scale with
  | some (.int n) => some n
  | _ => .none

end Properties
end Isam
