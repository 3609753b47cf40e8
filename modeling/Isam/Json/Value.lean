import Isam.Double.Shortest
namespace Isam

structure JsonNumber where
  negative : Bool
  whole : List Char
  fraction : List Char
  exponent : Option (Bool × List Char)
  deriving DecidableEq, Repr

/-- A JSON text. A string has no value when its escapes spell half a surrogate pair; then it can be
skipped, but not read. -/
inductive Json
  | null
  | bool (b : Bool)
  | number (n : JsonNumber)
  | string (s : Option String)
  | array (items : List Json)
  | object (entries : List (Option String × Json))

namespace JsonNumber

def ofInt (n : Int) : JsonNumber := ⟨n < 0, Text.digits n.natAbs, [], none⟩

def toInt? (n : JsonNumber) : Option Int :=
  if !n.fraction.isEmpty || n.exponent.isSome then none
  else
    let m := Text.ofDigits n.whole
    -- a zero with a sign is no integer
    if n.negative then if m = 0 || UInt64.size < 2 * m then none else some (-m)
    else if m < UInt64.size then some m else none

def significand : Nat → List Char → Nat × List Char
  | m, [] => (m, [])
  | m, c :: cs =>
    if 10 * m + Text.digitValue c < UInt64.size then significand (10 * m + Text.digitValue c) cs
    else (m, c :: cs)

def tenTo (n : Nat) : Double := ⟨UInt64.ofNat (Double.nearestMagnitude (Text.tenTo n) 1)⟩

def scale : Nat → Double → Int → Option Double
  | 0, _, _ => none
  | fuel + 1, x, e =>
    if e.natAbs ≤ 308 then
      if 0 ≤ e then
        let y := x.timesSize (tenTo e.toNat)
        if y.isFinite then some y else none
      else some (x.overSize (tenTo e.natAbs))
    else if x.isZero then some x
    else if 0 ≤ e then none
    else scale fuel (x.overSize (tenTo 308)) (e + 308)

def power (n : JsonNumber) (moved : Int) : Int :=
  match n.exponent with
  | none => moved
  | some (negative, ds) =>
    let e := (Text.ofDigits ds : Int)
    max Int32.minValue.toInt (min Int32.maxValue.toInt (if negative then moved - e else moved + e))

def exponentOverflows (n : JsonNumber) : Bool :=
  match n.exponent with
  | none => false
  | some (_, ds) => Int32.maxValue.toInt < Text.ofDigits ds

def toDouble? (n : JsonNumber) : Option Double :=
  let (w, wholeRest) := significand 0 n.whole
  let (m, fractionRest) := significand w n.fraction
  let moved : Int := wholeRest.length + fractionRest.length - n.fraction.length
  let sign (x : Double) := Double.signed n.negative x.magnitude
  if n.exponentOverflows then
    match n.exponent with
    | some (false, _) => if m = 0 then some (sign ⟨0⟩) else none
    | _ => some (sign ⟨0⟩)
  else (scale 20 (Double.ofInt m) (n.power moved)).map sign

def text (n : JsonNumber) : List Char :=
  (if n.negative then ['-'] else []) ++ n.whole ++
    (if n.fraction.isEmpty then [] else '.' :: n.fraction) ++
    match n.exponent with
    | none => []
    | some (negative, ds) => 'e' :: (if negative then '-' :: ds else ds)

def asDouble? (n : JsonNumber) : Option Double :=
  match n.toInt? with
  | some m => some (Double.ofInt m)
  | none => n.toDouble?

end JsonNumber

namespace Json

def ofString (s : String) : Json := .string (some s)

def ofInt (n : Int) : Json := .number (.ofInt n)

def ofNat (n : Nat) : Json := .number (.ofInt n)

def ofOption (render : α → Json) : Option α → Json
  | none => .null
  | some a => render a

def ofPairs (es : List (String × Json)) : Json := .object (es.map fun e => (some e.1, e.2))

def escapeChar (c : Char) : List Char :=
  if c = '"' then ['\\', '"']
  else if c = '\\' then ['\\', '\\']
  else if c.toNat < 0x20 then ['\\', 'u'] ++ Text.hexPlaces 4 c.toNat
  else [c]

def escape (s : String) : String := String.ofList ('"' :: s.toList.flatMap escapeChar ++ ['"'])

mutual

def compact : Json → String
  | .null => "null"
  | .bool b => if b then "true" else "false"
  | .number n => String.ofList n.text
  | .string s => escape (s.getD "")
  | .array items => "[" ++ ",".intercalate (compactItems items) ++ "]"
  | .object entries => "\x7b" ++ ",".intercalate (compactEntries entries) ++ "\x7d"

def compactItems : List Json → List String
  | [] => []
  | j :: js => j.compact :: compactItems js

def compactEntries : List (Option String × Json) → List String
  | [] => []
  | e :: es => (escape (e.1.getD "") ++ ":" ++ e.2.compact) :: compactEntries es

end

def ofDouble (x : Double) : Json :=
  if !x.isFinite then .null
  else if x.isZero then .number ⟨x.isNegative, ['0'], ['0'], none⟩
  else
    let (cs, point) := x.significant
    if Double.interchange.lowest ≤ point && point ≤ Double.interchange.highest then
      let whole := cs.take point.toNat ++ List.replicate (point.toNat - cs.length) '0'
      let fraction := List.replicate (-point).toNat '0' ++ cs.drop point.toNat
      .number ⟨x.isNegative, if whole.isEmpty then ['0'] else whole,
        if fraction.isEmpty then ['0'] else fraction, none⟩
    else
      .number ⟨x.isNegative, cs.take 1, cs.drop 1,
        some (point ≤ 0, Text.digits (point - 1).natAbs)⟩

end Json
end Isam
