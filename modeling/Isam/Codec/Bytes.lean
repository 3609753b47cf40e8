import Isam.Text.Basic
namespace Isam.Codec

variable {α : Type}

abbrev Reader := StateT (List UInt8) Option

def putNat : Nat → Nat → List UInt8
  | 0, _ => []
  | width + 1, n => UInt8.ofNat n :: putNat width (n / 256)

def takeNat : Nat → Reader Nat
  | 0, bs => some (0, bs)
  | _ + 1, [] => none
  | width + 1, b :: bs =>
    match takeNat width bs with
    | some (n, rest) => some (b.toNat + 256 * n, rest)
    | none => none

theorem putNat_length (width n : Nat) : (putNat width n).length = width := by
  induction width generalizing n with
  | zero => rfl
  | succ width ih => simp [putNat, ih]

theorem takeNat_putNat (width n : Nat) (h : n < Nat.pow 256 width) (rest : List UInt8) :
    takeNat width (putNat width n ++ rest) = some (n, rest) := by
  induction width generalizing n with
  | zero => simp [putNat, takeNat, Nat.lt_one_iff.1 h]
  | succ width ih =>
    have hn : n / 256 < Nat.pow 256 width := (Nat.div_lt_iff_lt_mul (by decide)).2 h
    simp only [putNat, List.cons_append, takeNat, ih _ hn, UInt8.toNat_ofNat']
    simp only [Option.some.injEq, Prod.mk.injEq, and_true]
    omega

def putShort (n : UInt16) : List UInt8 := putNat 2 n.toNat
def putWord (n : UInt32) : List UInt8 := putNat 4 n.toNat
def putLong (n : UInt64) : List UInt8 := putNat 8 n.toNat
def putCount (n : Nat) : List UInt8 := putNat 8 n
def putTag (n : Nat) : List UInt8 := putNat 4 n

def putBool (b : Bool) : List UInt8 := [if b then 1 else 0]

def putBytes (bs : List UInt8) : List UInt8 := putCount bs.length ++ bs

def putText (s : String) : List UInt8 := putBytes (Text.utf8 s)

def putList (put : α → List UInt8) (as : List α) : List UInt8 :=
  putCount as.length ++ as.flatMap put

def takeShort : Reader UInt16 := UInt16.ofNat <$> takeNat 2
def takeWord : Reader UInt32 := UInt32.ofNat <$> takeNat 4
def takeLong : Reader UInt64 := UInt64.ofNat <$> takeNat 8
def takeCount : Reader Nat := takeNat 8
def takeTag : Reader Nat := takeNat 4

def takeBool : Reader Bool
  | 0 :: bs => some (false, bs)
  | 1 :: bs => some (true, bs)
  | _ => none

def takeExactly (n : Nat) : Reader (List UInt8) := fun bs =>
  let front := bs.take n
  if front.length = n then some (front, bs.drop n) else none

def takeBytes : Reader (List UInt8) := do takeExactly (← takeCount)

def takeText : Reader String := do Text.ofUtf8? (← takeBytes)

def takeMany (take : Reader α) : Nat → Reader (List α)
  | 0, bs => some ([], bs)
  | n + 1, bs =>
    match take bs with
    | none => none
    | some (a, rest) =>
      match takeMany take n rest with
      | some (as, rest) => some (a :: as, rest)
      | none => none

def takeList (take : Reader α) : Reader (List α) := do takeMany take (← takeCount)

end Isam.Codec
