namespace Isam

structure Double where
  bits : UInt64
  deriving DecidableEq, Repr

namespace Double

def ofNat64 (n : Nat) : Double := ⟨UInt64.ofNat n⟩

def magnitude (x : Double) : Nat := x.bits.toNat % 0x8000000000000000

def isNegative (x : Double) : Bool := 0x8000000000000000 ≤ x.bits.toNat

def exponentField (x : Double) : Nat := x.magnitude / 0x10000000000000

def fractionField (x : Double) : Nat := x.magnitude % 0x10000000000000

def isFinite (x : Double) : Bool := x.exponentField < 2047

def isNaN (x : Double) : Bool := x.exponentField == 2047 && x.fractionField != 0

def isZero (x : Double) : Bool := x.magnitude == 0

def scaled (x : Double) : Nat × Int :=
  if x.exponentField = 0 then (x.fractionField, -1074)
  else (x.fractionField + 0x10000000000000, (x.exponentField : Int) - 1075)

def ratio (x : Double) : Nat × Nat :=
  let (m, q) := x.scaled
  (m <<< q.toNat, 1 <<< (-q).toNat)

/-- Numbers in their total order, with the NaNs at both ends and `-0` before `0`. -/
def position (x : Double) : Int :=
  if x.isNegative then -1 - (x.magnitude : Int) else x.magnitude

def totalCompare (x y : Double) : Ordering := compare x.position y.position

theorem bits_toNat (x : Double) :
    x.bits.toNat = (if x.isNegative then 0x8000000000000000 else 0) + x.magnitude := by
  have h := x.bits.toNat_lt
  simp only [isNegative, magnitude, decide_eq_true_eq]
  split <;> omega

theorem eq_of_position_eq {x y : Double} (h : x.position = y.position) : x = y := by
  have hx := x.bits_toNat
  have hy := y.bits_toNat
  have : x.bits.toNat = y.bits.toNat := by
    simp only [position] at h
    split at h <;> split at h <;> simp_all <;> omega
  cases x; cases y
  simp only [mk.injEq]
  exact UInt64.toNat_inj.1 this

def roundQuotient (n d : Nat) : Nat :=
  let q := n / d
  let r := n % d
  if d < 2 * r || (2 * r == d && q % 2 == 1) then q + 1 else q

def binaryExponent (n d : Nat) : Int :=
  let k := (n.log2 : Int) - d.log2
  if d <<< k.toNat ≤ n <<< (-k).toNat then k else k - 1

def infinityMagnitude : Nat := 0x7FF0000000000000

/-- The bits below the sign of the number nearest to `n / d`, ties to even, and infinity past the
largest one. -/
def nearestMagnitude (n d : Nat) : Nat :=
  if n = 0 then 0
  else
    let q := max (binaryExponent n d - 52) (-1074)
    let m := roundQuotient (n <<< (-q).toNat) (d <<< q.toNat)
    min ((q + 1074).toNat * 0x10000000000000 + m) infinityMagnitude

def signed (negative : Bool) (magnitude : Nat) : Double :=
  ofNat64 (if negative then 0x8000000000000000 + magnitude else magnitude)

def ofInt (n : Int) : Double := signed (n < 0) (nearestMagnitude n.natAbs 1)

def timesSize (x y : Double) : Double :=
  let (a, b) := x.ratio
  let (c, d) := y.ratio
  signed false (nearestMagnitude (a * c) (b * d))

def overSize (x y : Double) : Double :=
  let (a, b) := x.ratio
  let (c, d) := y.ratio
  signed false (nearestMagnitude (a * d) (b * c))

end Double
end Isam
