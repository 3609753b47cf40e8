import Isam.Calendar.Time
import Isam.Text.Basic
namespace Isam

inductive Value
  | null
  | bool (b : Bool)
  | signed (n : Int64)
  | unsigned (n : UInt64)
  | float (x : Double)
  | date (d : Date)
  | time (t : Time)
  | timestamp (t : Timestamp)
  | text (s : String)
  | binary (bs : List UInt8)
  deriving DecidableEq, Repr

abbrev Row := List Value

namespace Value

def isNull : Value → Bool
  | .null => true
  | _ => false

def kind : Value → ValueKind
  | .null => .null
  | .bool _ => .bool
  | .signed _ => .signed
  | .unsigned _ => .unsigned
  | .float _ => .float
  | .date _ => .date
  | .time _ => .time
  | .timestamp _ => .timestamp
  | .text _ => .text
  | .binary _ => .binary

def rank : Value → Nat
  | .null => 0
  | .bool _ => 1
  | .signed _ | .unsigned _ | .float _ => 2
  | .date _ => 3
  | .time _ => 4
  | .timestamp _ => 5
  | .text _ => 6
  | .binary _ => 7

def textKey (ignoreCase : Bool) (s : String) : List UInt8 :=
  if ignoreCase then (Text.utf8 s).map Text.lowerByte else Text.utf8 s

/-- The order of keys. Null is first; integers compare by value, floats in their total order, and an
integer with a float as the float nearest to it. -/
def compareKey (ignoreCase : Bool) : Value → Value → Ordering
  | .bool a, .bool b => compare a.toNat b.toNat
  | .signed a, .signed b => compare a.toInt b.toInt
  | .unsigned a, .unsigned b => compare a.toNat b.toNat
  | .signed a, .unsigned b => compare a.toInt (b.toNat : Int)
  | .unsigned a, .signed b => compare (a.toNat : Int) b.toInt
  | .float a, .float b => a.totalCompare b
  | .float a, .signed b => a.totalCompare (Double.ofInt b.toInt)
  | .float a, .unsigned b => a.totalCompare (Double.ofInt b.toNat)
  | .signed a, .float b => (Double.ofInt a.toInt).totalCompare b
  | .unsigned a, .float b => (Double.ofInt a.toNat).totalCompare b
  | .date a, .date b => a.compare b
  | .time a, .time b => a.compare b
  | .timestamp a, .timestamp b => a.compare b
  | .text a, .text b => Text.compareBytes (textKey ignoreCase a) (textKey ignoreCase b)
  | .binary a, .binary b => Text.compareBytes a b
  | a, b => compare a.rank b.rank

def describeDate (d : Date) : String := Text.labelled "CtDate" [("days", toString d.days.toInt)]

def describeTime (t : Time) : String := Text.labelled "CtTime" [("secs", toString t.seconds.toNat)]

def describe : Value → String
  | .null => "Null"
  | .bool b => s!"Bool({b})"
  | .signed n => s!"Signed({n.toInt})"
  | .unsigned n => s!"Unsigned({n.toNat})"
  | .float x => "Float(" ++ Double.detailed.render x ++ ")"
  | .date d => "Date(" ++ describeDate d ++ ")"
  | .time t => "Time(" ++ describeTime t ++ ")"
  | .timestamp t => "Timestamp(" ++
      Text.labelled "CtTimestamp"
        [("date", describeDate t.date), ("time", describeTime t.time)] ++ ")"
  | .text s => "Text(" ++ Text.quoted s ++ ")"
  | .binary bs => "Binary(" ++ Text.bracketed (bs.map fun b => toString b.toNat) ++ ")"

end Value

theorem Text.compareBytes_swap (as bs : List UInt8) :
    compareBytes bs as = (compareBytes as bs).swap := by
  induction as generalizing bs with
  | nil => cases bs <;> rfl
  | cons a as ih =>
    cases bs with
    | nil => rfl
    | cons b bs => rw [compareBytes, compareBytes, Ordering.swap_then, ← ih bs, Std.OrientedOrd.eq_swap]

theorem Timestamp.compare_swap (s t : Timestamp) : t.compare s = (s.compare t).swap := by
  have hdate : t.date.compare s.date = (s.date.compare t.date).swap := Std.OrientedOrd.eq_swap
  have htime : t.time.compare s.time = (s.time.compare t.time).swap := Std.OrientedOrd.eq_swap
  rw [compare, compare, Ordering.swap_then, hdate, htime]

namespace Value

def integer? : Value → Option Int
  | .signed n => some n.toInt
  | .unsigned n => some n.toNat
  | _ => none

theorem compareKey_swap (ignoreCase : Bool) (a b : Value) :
    b.compareKey ignoreCase a = (a.compareKey ignoreCase b).swap := by
  cases a <;> cases b <;> first
    | exact Std.OrientedOrd.eq_swap
    | exact Text.compareBytes_swap _ _
    | exact Timestamp.compare_swap _ _

theorem compareKey_null (ignoreCase : Bool) (v : Value) :
    v.compareKey ignoreCase .null = .eq ↔ v.isNull = true := by
  cases v <;> simp [compareKey, rank, isNull]

end Value

end Isam
