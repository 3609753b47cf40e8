import Isam.Double.Basic
import Isam.Text.Basic
namespace Isam.Double

structure Scientific where
  digits : Nat
  power : Int

def digitCount (n : Nat) : Nat := (Text.digits n).length

def decimalExponent (n d : Nat) : Int :=
  let k := (digitCount n : Int) - digitCount d
  if n * Text.tenTo (-k).toNat < d * Text.tenTo k.toNat then k else k + 1

structure Interval where
  low : Nat
  middle : Nat
  high : Nat
  closed : Bool
  power : Int

def interval (x : Double) : Interval :=
  -- in quarters of the last place, so that the halves on both sides are whole
  let (m, q) := x.scaled
  let low := if x.fractionField = 0 && 1 < x.exponentField then 4 * m - 1 else 4 * m - 2
  ⟨low, 4 * m, 4 * m + 2, m % 2 == 0, q - 2⟩

def compareScaled (a : Nat) (p : Int) (b : Nat) (q : Int) : Ordering :=
  compare (a * Text.tenTo p.toNat <<< (-q).toNat) (b * Text.tenTo (-p).toNat <<< q.toNat)

def Interval.holds (i : Interval) (s : Scientific) : Bool :=
  let low := compareScaled s.digits s.power i.low i.power
  let high := compareScaled s.digits s.power i.high i.power
  (low == .gt || (low == .eq && i.closed)) && (high == .lt || (high == .eq && i.closed))

def neighbours (n d : Nat) (count : Nat) : List Scientific :=
  let p := decimalExponent n d - count
  let top := n * Text.tenTo (-p).toNat
  let unit := d * Text.tenTo p.toNat
  let a := top / unit
  -- the nearer one first, the upper one at a tie
  if 2 * (top % unit) < unit then [⟨a, p⟩, ⟨a + 1, p⟩] else [⟨a + 1, p⟩, ⟨a, p⟩]

def shortestFrom (x : Double) : Nat → Nat → Scientific
  | 0, count => ((neighbours x.ratio.1 x.ratio.2 count).headD ⟨0, 0⟩)
  | fuel + 1, count =>
    match (neighbours x.ratio.1 x.ratio.2 count).find? x.interval.holds with
    | some s => s
    | none => shortestFrom x fuel (count + 1)

def shortest (x : Double) : Scientific := shortestFrom x 16 1

def significant (x : Double) : List Char × Int :=
  let s := x.shortest
  let cs := Text.digits s.digits
  ((cs.reverse.dropWhile (· == '0')).reverse, cs.length + s.power)

def positional (cs : List Char) (point : Int) (places : Nat) : List Char :=
  let whole := cs.take point.toNat ++ List.replicate (point.toNat - cs.length) '0'
  let fraction := List.replicate (-point).toNat '0' ++ cs.drop point.toNat
  let fraction := fraction ++ List.replicate (places - fraction.length) '0'
  (if whole.isEmpty then ['0'] else whole) ++ (if fraction.isEmpty then [] else '.' :: fraction)

def exponential (cs : List Char) (point : Int) : List Char :=
  cs.take 1 ++ (if cs.length ≤ 1 then [] else '.' :: cs.drop 1) ++ 'e' :: Text.padded 1 (point - 1)

structure Style where
  lowest : Int
  highest : Int
  places : Nat

def Style.render (style : Style) (x : Double) : String :=
  if x.isNaN then "NaN"
  else
    let sign := if x.isNegative then "-" else ""
    if !x.isFinite then sign ++ "inf"
    else if x.isZero then sign ++ String.ofList (positional [] 0 style.places)
    else
      let (cs, point) := x.significant
      sign ++ String.ofList (if style.lowest ≤ point && point ≤ style.highest
        then positional cs point style.places else exponential cs point)

def plain : Style := ⟨-400, 400, 0⟩

def detailed : Style := ⟨-3, 16, 1⟩

def interchange : Style := ⟨-4, 16, 1⟩

end Isam.Double
